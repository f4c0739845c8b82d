/-
Peg/Proofs/Grammar/Locate.lean

The grammar of grammars finds the parts of a grammar where they stand.

A node of a syntax tree has the span of the alternative that gave it, and its
blanks go with the token before them.  So what is found of a rule
(`findingOf`) is where its value begins and ends and, for the parts that the
value is read as, that they have this span and that what is inside them is
placed.  A part may begin later than the rule that gives it, after a bar, a
mark or blanks; it never ends before.
-/
import Peg.Proofs.Grammar.Meanings
import Peg.Proofs.Grammar.Placed
import Peg.Proofs.Grammar.ReadGrammar
import Peg.Proofs.Grammar.Terminates
import Peg.Proofs.Program.Finds
import Peg.Proofs.Program.Resolve

namespace Peg

open Text Regex Peg.Tree

/-- Nothing goes back. -/
theorem Progress.le {input : List Char} {start stop : Nat} {nullable : Bool}
    (h : Progress input start nullable stop) : start ≤ stop := by
  rcases h with ⟨rfl, -⟩ | ⟨hlt, -⟩
  · exact Nat.le_refl _
  · exact hlt.le

/-- What cannot be empty goes forward. -/
theorem Progress.lt {input : List Char} {start stop : Nat}
    (h : Progress input start false stop) : start < stop := by
  rcases h with ⟨-, hfalse⟩ | ⟨hlt, -⟩
  · cases hfalse
  · exact hlt

/-! ### Trees of parts -/

section Locates

variable {α : Type} {read : Value → Except CompileError α} {span : α → Span} {placed : α → Prop}
  {start stop : Nat} {trees : List Value} {parts : List α}

/-- What a tree is read as has the span where the tree was found, and its parts are placed. -/
def Locates (read : Value → Except CompileError α) (span : α → Span) (placed : α → Prop) :
    Finding := fun start stop tree =>
  ∀ part, read tree = .ok part → span part = ⟨start, stop⟩ ∧ placed part

/-- Something that is not empty is found here or later. -/
def Finding.Later (finding : Finding) : Finding := fun start stop value =>
  ∃ first, start ≤ first ∧ first < stop ∧ finding first stop value

/-- Parts that are found one after the other have their spans in order. -/
theorem inOrder_of_chain (h : (Locates read span placed).Later.Chain start stop trees)
    (hread : trees.mapM read = .ok parts) :
    InOrder start stop (parts.map span) ∧ ∀ part ∈ parts, placed part := by
  rw [mapM_eq_ok_iff] at hread
  induction h generalizing parts with
  | nil start =>
    cases hread
    exact ⟨.nil (Nat.le_refl start), nofun⟩
  | cons h hchain ih =>
    rcases hread with - | ⟨hpart, hparts⟩
    obtain ⟨first, hle, hlt, hlocates⟩ := h
    obtain ⟨hspan, hplaced⟩ := hlocates _ hpart
    obtain ⟨horder, hothers⟩ := ih hparts
    refine ⟨?_, List.forall_mem_cons.2 ⟨hplaced, hothers⟩⟩
    rw [List.map_cons, hspan]
    exact .cons hle hlt horder

/-- Without anything in between the spans cover all of the range. -/
theorem tiles_of_chain
    (h : Finding.Chain (fun start stop tree =>
      start < stop ∧ Locates read span placed start stop tree) start stop trees)
    (hread : trees.mapM read = .ok parts) :
    Tiles start stop (parts.map span) ∧ ∀ part ∈ parts, placed part := by
  rw [mapM_eq_ok_iff] at hread
  induction h generalizing parts with
  | nil start =>
    cases hread
    exact ⟨.nil start, nofun⟩
  | cons h hchain ih =>
    rcases hread with - | ⟨hpart, hparts⟩
    obtain ⟨hspan, hplaced⟩ := h.2 _ hpart
    obtain ⟨htiles, hothers⟩ := ih hparts
    refine ⟨?_, List.forall_mem_cons.2 ⟨hplaced, hothers⟩⟩
    rw [List.map_cons, hspan]
    exact .cons h.1 htiles

end Locates

namespace Meta

/-! ### Findings of rules -/

abbrev LocatesPattern : Finding :=
  Locates pattern Pattern.span Pattern.Placed

abbrev LocatesAlternative : Finding :=
  Locates alternative Alternative.span Alternative.Placed

abbrev LocatesGroupItem (read : Value → Except CompileError GroupItem) : Finding :=
  Locates read (fun item => item.item.span) GroupItem.Placed

/-- What is found of a rule in a source. -/
def findingOf (source : List Char) : Name → Finding
  | .grammar => fun start stop tree => ∀ text, dropBytes? source start = some text →
    ∃ first, dropBytes? source first = some (skipLayout false text) ∧
      ∀ grammar, Grammar.ofTree tree = .ok grammar → grammar.Placed first stop
  | .item | .pasta | .rule => fun start stop tree => start < stop ∧ ∀ grammar grammar' first,
    addTo grammar tree = .ok grammar' → grammar.Placed first start → grammar'.Placed first stop
  | .alternatives => fun start stop value =>
    ∃ trees, value = .list trees ∧ LocatesAlternative.Later.Chain start stop trees
  | .altTail | .alternative => LocatesAlternative.Later
  | .mapper => fun start stop tree =>
    ∀ code, mapper tree = .ok (some code) → code.span = ⟨start, stop⟩
  | .rep => fun start stop tree => start < stop ∧
    ∀ important, LocatesGroupItem (repeatable important) start stop tree
  | .groupItem => (LocatesGroupItem groupItem).Later
  | .simple | .literal | .regex | .any | .variable | .group | .template | .apply => LocatesPattern
  | .ws => fun start stop _ => ∀ text, dropBytes? source start = some text →
    dropBytes? source stop = some (skipLayout false text)
  | .pastaText | .tplHead | .typeAnn | .mapperText | .modifier | .applyHead | .id =>
    fun _ _ _ => True

/-- Findings by the numbers of the rules. -/
def findings (source : List Char) : Nat → Finding :=
  fun id start stop value => ∀ name : Name, name.number = id →
    findingOf source name start stop value

/-- What is found of an item of an alternative, and how far it goes. -/
def itemFinding (source : List Char) (item : Matcher) : Finding := fun start stop value =>
  item.Finds source (findings source) start stop value ∧
    Progress source start (item.isNullable program.nullable false) stop

/-- The alternatives of a rule have its finding. -/
def Located (source : List Char) (name : Name) : Prop :=
  ∀ alternative ∈ alternativesOf name, ∀ start stop captures,
    FindsAll (itemFinding source) alternative.items start stop captures →
      findingOf source name start stop (alternative.value captures source ⟨start, stop⟩)

variable {source : List Char} {name : Name} {start stop : Nat} {value : Value}

/-- A rule of one alternative. -/
theorem Located.only {alternative : CompiledAlternative}
    (hname : alternativesOf name = [alternative])
    (h : ∀ start stop captures,
      FindsAll (itemFinding source) alternative.items start stop captures →
      findingOf source name start stop (alternative.value captures source ⟨start, stop⟩)) :
    Located source name := by
  intro alternative' halternative
  rw [hname, List.mem_singleton] at halternative
  rw [halternative]
  exact h

/-- What a rule of the grammar finds is said by the findings. -/
theorem found_call (h : (call name).Finds source (findings source) start stop value) :
    findingOf source name start stop value :=
  h name rfl

/-- The successes of a repeated rule. -/
theorem chain_call {values : List Value}
    (h : Finding.Chain ((call name).Finds source (findings source)) start stop values) :
    (findingOf source name).Chain start stop values :=
  h.mono fun _ _ _ => found_call

/-- An item of an alternative lies between the ends of the alternative. -/
theorem found_at {items : List Matcher} {captures : List Capture}
    (h : FindsAll (itemFinding source) items start stop captures) (index : Nat) {item : Matcher}
    (hitem : items[index]? = some item) :
    ∃ first last value, captures[index]? = some ⟨value, ⟨first, last⟩⟩ ∧
      itemFinding source item first last value ∧ start ≤ first ∧ last ≤ stop := by
  have hle : ∀ {items : List Matcher} {start stop : Nat} {captures : List Capture},
      FindsAll (itemFinding source) items start stop captures → start ≤ stop := by
    intro items
    induction items with
    | nil => exact fun h => h.1.ge
    | cons item items ih =>
      rintro start stop captures ⟨middle, _, _, -, hitem, hitems⟩
      exact hitem.2.le.trans (ih hitems)
  induction items generalizing start captures index with
  | nil => cases hitem
  | cons first items ih =>
    obtain ⟨middle, value, others, rfl, hfirst, hothers⟩ := h
    cases index with
    | zero =>
      obtain rfl := Option.some.inj hitem
      exact ⟨start, middle, value, rfl, hfirst, Nat.le_refl start, hle hothers⟩
    | succ index =>
      obtain ⟨first, last, value, hvalue, hfound, hstart, hstop⟩ := ih hothers index hitem
      exact ⟨first, last, value, hvalue, hfound, hfirst.2.le.trans hstart, hstop⟩

/-- What is not nullable reads something. -/
theorem lt_of_progress {m : Matcher} (hm : m.isNullable program.nullable false = false)
    (h : Progress source start (m.isNullable program.nullable false) stop) : start < stop := by
  rw [hm] at h
  exact h.lt

/-- The node of an alternative has the span of the alternative and the values of some items. -/
theorem value_node (items : List Matcher) (kind : String) (indexes : List Nat)
    (captures : List Capture) (input : List Char) (span : Span) :
    (node items kind indexes).value captures input span = .node kind span
      (indexes.map fun index => ((captures[index]?).map (·.value)).getD .absent) := by
  have harguments : MapperExpr.evaluateAll captures input span (indexes.map .capture) =
      indexes.map fun index => ((captures[index]?).map (·.value)).getD .absent := by
    induction indexes with
    | nil => rfl
    | cons index indexes ih => rw [List.map_cons, MapperExpr.evaluateAll, ih]; rfl
  rw [← harguments]
  rfl

/-! ### Blanks -/

/-- Blanks and comments may be empty. -/
theorem located_ws : Located source .ws := by
  refine .only rfl fun start stop captures h text htext => ?_
  -- what the expression reads is the layout, neither more nor less
  obtain ⟨_, _, _, rfl, ⟨⟨word, rest, hword, rfl, hlength⟩, -⟩, rfl, rfl⟩ := h
  rw [htext, Option.some.injEq] at hword
  subst hword
  have hbest := (matchLength?_textStart _ _).symm.trans hlength
  obtain ⟨word', htext', hsize⟩ := skipLayout_of_blanks hbest
  obtain ⟨-, hrest⟩ := append_inj_of_size htext' hsize
  rw [dropBytes?_add htext, ← hrest]

/-! ### Patterns -/

/-- A pattern without others inside it has the span of its node. -/
theorem locates_leaf {kind : String} (happly : kind ≠ "apply") (hgroup : kind ≠ "group")
    (children : List Value) :
    LocatesPattern start stop (.node kind ⟨start, stop⟩ children) := by
  intro p h
  rw [pattern.eq_def] at h
  dsimp only at h
  split at h
  · obtain ⟨token, -, h⟩ := bind_eq_ok_iff.1 h
    cases h
    exact ⟨rfl, trivial⟩
  · obtain ⟨token, -, h⟩ := bind_eq_ok_iff.1 h
    cases h
    exact ⟨rfl, trivial⟩
  · cases h
    exact ⟨rfl, trivial⟩
  · obtain ⟨token, -, h⟩ := bind_eq_ok_iff.1 h
    split at h
    · cases h
      exact ⟨rfl, trivial⟩
    · cases h
  · obtain ⟨token, -, h⟩ := bind_eq_ok_iff.1 h
    cases h
    exact ⟨rfl, trivial⟩
  · obtain ⟨name, -, h⟩ := bind_eq_ok_iff.1 h
    obtain ⟨function, -, h⟩ := bind_eq_ok_iff.1 h
    obtain ⟨text, -, h⟩ := bind_eq_ok_iff.1 h
    obtain ⟨body, -, h⟩ := bind_eq_ok_iff.1 h
    cases h
    exact ⟨rfl, trivial⟩
  · exact absurd rfl happly
  · exact absurd rfl hgroup
  · cases h

/-- A rule that gives a node for a pattern without others inside it. -/
theorem located_leaf {items : List Matcher} {kind : String} {indexes : List Nat}
    (hname : alternativesOf name = [node items kind indexes])
    (hfinding : findingOf source name = LocatesPattern) (happly : kind ≠ "apply")
    (hgroup : kind ≠ "group") : Located source name := by
  refine .only hname fun start stop captures _ => ?_
  rw [hfinding]
  exact locates_leaf happly hgroup _

/-- The pattern of an application is found between its parentheses. -/
theorem located_apply : Located source .apply := by
  refine .only rfl fun start stop captures h p hp => ?_
  -- after the name, the bracket and the blanks
  obtain ⟨_, _, tree, htree, ⟨hsimple, hinner⟩, hstart, hstop⟩ := found_at h 3 rfl
  rw [value_node] at hp
  simp only [List.map_cons, List.map_nil, htree, Option.map_some, Option.getD_some] at hp
  rw [pattern.eq_def] at hp
  dsimp only at hp
  obtain ⟨function, -, hp⟩ := bind_eq_ok_iff.1 hp
  obtain ⟨inner, hread, hp⟩ := bind_eq_ok_iff.1 hp
  obtain rfl := Except.ok.inj hp
  obtain ⟨hspan, hplaced⟩ := found_call hsimple inner hread
  refine ⟨rfl, ?_, hplaced⟩
  rw [hspan]
  exact ⟨hstart, hinner.le, hstop⟩

/-- The items of a group are found between its parentheses, in order. -/
theorem located_group : Located source .group := by
  refine .only rfl fun start stop captures h p hp => ?_
  obtain ⟨_, _, list, hlist, ⟨⟨trees, rfl, -, hchain⟩, -⟩, hstart, hstop⟩ := found_at h 2 rfl
  rw [value_node] at hp
  simp only [List.map_cons, List.map_nil, hlist, Option.map_some, Option.getD_some] at hp
  rw [pattern_group, map_eq_ok_iff, groupItems_eq_mapM] at hp
  obtain ⟨items, hitems, rfl⟩ := hp
  obtain ⟨horder, hplaced⟩ := inOrder_of_chain (chain_call hchain) hitems
  exact ⟨rfl, horder.widen hstart hstop, allPlaced_iff.2 hplaced⟩

/-- What is looked ahead for takes no place. -/
theorem located_simple : Located source .simple := by
  intro alternative halternative start stop captures h
  rw [alternativesOf_simple] at halternative
  rcases List.mem_append.1 halternative with htold | hlook
  · obtain ⟨opening, hopening, rfl⟩ := List.mem_map.1 htold
    obtain ⟨_, tree, _, rfl, ⟨hcall, -⟩, rfl, rfl⟩ := h
    have hfound := found_call hcall
    simp only [openings, List.mem_cons, List.not_mem_nil, or_false] at hopening
    rcases hopening with rfl | rfl | rfl | rfl | rfl <;> exact hfound
  · simp only [List.mem_cons, List.not_mem_nil, or_false] at hlook
    rcases hlook with rfl | rfl | rfl
    · -- the same again for a template and for an application, which are looked ahead for
      obtain ⟨_, _, _, rfl, ⟨rfl, -⟩, _, tree, _, rfl, ⟨hcall, -⟩, rfl, rfl⟩ := h
      have hfound := found_call hcall
      exact hfound
    · obtain ⟨_, _, _, rfl, ⟨rfl, -⟩, _, tree, _, rfl, ⟨hcall, -⟩, rfl, rfl⟩ := h
      have hfound := found_call hcall
      exact hfound
    · exact locates_leaf (by decide) (by decide) _

/-! ### Members of sequences and groups -/

/-- A pattern is found at the beginning of what repeats it. -/
theorem located_rep : Located source .rep := by
  refine .only rfl fun start stop captures h => ?_
  obtain ⟨_, tree, _, rfl, ⟨hsimple, hpattern⟩, _, modifier, _, rfl, ⟨-, hmodifier⟩, _, _, _, rfl,
    ⟨-, hblanks⟩, rfl, rfl⟩ := h
  -- the item goes on after its pattern, with the modifier and the blanks
  have hlt := lt_of_progress (by decide +kernel) hpattern
  have hle := hmodifier.le.trans hblanks.le
  refine ⟨hlt.trans_le hle, fun important item hitem => ?_⟩
  have hrep : repeatable important (.node "rep" ⟨start, stop⟩ [tree, modifier]) = .ok item := hitem
  rw [repeatable_node, bind_eq_ok_iff] at hrep
  obtain ⟨text, -, hrep⟩ := hrep
  obtain ⟨repetition, -, hrep⟩ := bind_eq_ok_iff.1 hrep
  obtain ⟨p, hp, hrep⟩ := bind_eq_ok_iff.1 hrep
  obtain rfl := Except.ok.inj hrep
  obtain ⟨hspan, hplaced⟩ := found_call hsimple p hp
  refine ⟨rfl, ?_, ?_, hplaced⟩
  · rw [hspan]
  · rw [hspan]
    exact ⟨Nat.le_refl start, hlt.le, hle⟩

/-- The mark of an item, if it has one, is before the pattern. -/
theorem located_groupItem : Located source .groupItem := by
  refine .only rfl fun start stop captures h => ?_
  obtain ⟨_, mark, _, rfl, ⟨-, hmark⟩, first, _, _, rfl, ⟨-, hblanks⟩, _, tree, _, rfl, ⟨hrep, -⟩,
    rfl, rfl⟩ := h
  obtain ⟨hlt, hlocates⟩ := found_call hrep
  -- the node of the mark is dropped, so the span is that of what comes after it
  refine ⟨first, hmark.le.trans hblanks.le, hlt, fun item hitem => ?_⟩
  have hgroupItem : groupItem (.node "groupItem" ⟨start, stop⟩ [mark, tree]) = .ok item := hitem
  rw [groupItem_node] at hgroupItem
  exact hlocates _ item hgroupItem

/-! ### Alternatives -/

/-- A mapper has some text, as it begins with two percent signs. -/
theorem located_mapper : Located source .mapper := by
  refine .only rfl fun start stop captures h code hcode => ?_
  obtain ⟨_, _, _, rfl, -, _, text, _, rfl, -, _, _, _, rfl, -, rfl, rfl⟩ := h
  have hmapper : mapper (.node "mapper" ⟨start, stop⟩ [text]) = .ok (some code) := hcode
  rw [mapper_eq rfl] at hmapper
  obtain ⟨⟨children, span⟩, hnode, hmapper⟩ := bind_eq_ok_iff.1 hmapper
  cases hnode
  obtain ⟨child, -, hmapper⟩ := bind_eq_ok_iff.1 hmapper
  obtain ⟨raw, -, hmapper⟩ := bind_eq_ok_iff.1 hmapper
  have hsome := Except.ok.inj hmapper
  split at hsome
  · cases hsome
  · obtain rfl := Option.some.inj hsome
    rfl

/-- An item of an alternative is a member of a group without its mark. -/
theorem locates_item {tree : Value} (h : LocatesGroupItem (repeatable false) start stop tree) :
    Locates item (·.span) Item.Placed start stop tree := by
  intro found hfound
  obtain ⟨⟨important, p, repetition, span⟩, hitem, hfound⟩ := bind_eq_ok_iff.1 hfound
  obtain rfl := Except.ok.inj hfound
  exact h _ hitem

/-- The items of an alternative are in order, and the mapper is behind them. -/
theorem located_alternative : Located source .alternative := by
  refine .only rfl fun start stop captures h => ?_
  obtain ⟨middle, _, _, rfl, ⟨⟨trees, rfl, hne, hchain⟩, hitems⟩, _, code, _, rfl,
    ⟨hoptional, hmapper⟩, rfl, rfl⟩ := h
  have hlt := lt_of_progress (by decide +kernel) hitems
  have hreps : Finding.Chain (fun start stop tree =>
      start < stop ∧ Locates item (·.span) Item.Placed start stop tree) start middle trees :=
    (chain_call hchain).mono fun _ _ _ hrep => ⟨hrep.1, locates_item (hrep.2 false)⟩
  refine ⟨start, Nat.le_refl start, hlt.trans_le hmapper.le, fun found hfound => ?_⟩
  have halternative : alternative (.node "alternative" ⟨start, stop⟩ [.list trees, code]) =
      .ok found := hfound
  rw [alternative_node, bind_eq_ok_iff] at halternative
  obtain ⟨items, hitems, halternative⟩ := halternative
  obtain ⟨mapper?, hread, halternative⟩ := bind_eq_ok_iff.1 halternative
  obtain rfl := Except.ok.inj halternative
  obtain ⟨htiles, hplaced⟩ := tiles_of_chain hreps hitems
  refine ⟨rfl, ne_nil_of_mapM hne hitems, ⟨middle, htiles, hmapper.le, fun code' hcode' => ?_⟩,
    hplaced⟩
  obtain rfl := Option.mem_def.1 hcode'
  -- the items end where the mapper is found
  rcases hoptional with hcall | ⟨-, rfl⟩
  · exact found_call hcall code' hread
  · cases hread

/-- An alternative is found behind its bar. -/
theorem located_altTail : Located source .altTail := by
  refine .only rfl fun start stop captures h => ?_
  obtain ⟨_, _, _, rfl, ⟨-, hbar⟩, _, _, _, rfl, ⟨-, hblanks⟩, _, tree, _, rfl, ⟨hcall, -⟩,
    rfl, rfl⟩ := h
  obtain ⟨first, hle, hlt, hlocates⟩ := found_call hcall
  exact ⟨first, (hbar.le.trans hblanks.le).trans hle, hlt, hlocates⟩

/-- The alternatives are in order. -/
theorem located_alternatives : Located source .alternatives := by
  refine .only rfl fun start stop captures h => ?_
  obtain ⟨_, first, _, rfl, ⟨hfirst, -⟩, _, _, _, rfl, ⟨⟨trees, rfl, hchain⟩, -⟩, rfl, rfl⟩ := h
  have hothers := chain_call hchain
  exact ⟨first :: trees, rfl, .cons (found_call hfirst) hothers⟩

/-! ### Rules -/

/-- A rule is placed when its alternatives stand inside it. -/
theorem placed_of_ruleOf {head : RuleHead} {type alternatives : Value} {span : Span} {rule : Rule}
    (hcall : (call .alternatives).Finds source (findings source) start stop alternatives)
    (hstart : span.start ≤ start) (hstop : stop ≤ span.stop)
    (h : ruleOf head type alternatives span = .ok rule) : rule.span = span ∧ rule.Placed := by
  obtain ⟨trees, rfl, hchain⟩ := found_call hcall
  rw [ruleOf_list, bind_eq_ok_iff] at h
  obtain ⟨declared, -, h⟩ := h
  obtain ⟨alternatives, halternatives, h⟩ := bind_eq_ok_iff.1 h
  obtain rfl := Except.ok.inj h
  obtain ⟨horder, hplaced⟩ := inOrder_of_chain hchain halternatives
  exact ⟨rfl, horder.widen hstart hstop, hplaced⟩

/-- A rule is added to the others, whatever its head. -/
theorem addTo_rule_eq_ok {grammar grammar' : Grammar} {span : Span} {name type alternatives : Value}
    (h : addTo grammar (.node "rule" span [name, type, alternatives]) = .ok grammar') :
    ∃ head rule, ruleOf head type alternatives span = .ok rule ∧
      grammar' = { grammar with rules := grammar.rules ++ [rule] } := by
  obtain ⟨rule, hrule, h⟩ := bind_eq_ok_iff.1 h
  obtain rfl := Except.ok.inj h
  obtain ⟨⟨children, span⟩, hnode, hrule⟩ := bind_eq_ok_iff.1 hrule
  cases hnode
  obtain ⟨child, -, hrule⟩ := bind_eq_ok_iff.1 hrule
  obtain ⟨name, -, hrule⟩ := bind_eq_ok_iff.1 hrule
  exact ⟨.simple name, rule, hrule, rfl⟩

/-- A template is added as a rule of the other kind. -/
theorem addTo_templateRule_eq_ok {grammar grammar' : Grammar} {span : Span}
    {name param type alternatives : Value}
    (h : addTo grammar (.node "templateRule" span [name, param, type, alternatives]) =
      .ok grammar') :
    ∃ head rule, ruleOf head type alternatives span = .ok rule ∧
      grammar' = { grammar with rules := grammar.rules ++ [rule] } := by
  obtain ⟨rule, hrule, h⟩ := bind_eq_ok_iff.1 h
  obtain rfl := Except.ok.inj h
  obtain ⟨⟨children, span⟩, hnode, hrule⟩ := bind_eq_ok_iff.1 hrule
  cases hnode
  obtain ⟨child, -, hrule⟩ := bind_eq_ok_iff.1 hrule
  obtain ⟨function, -, hrule⟩ := bind_eq_ok_iff.1 hrule
  obtain ⟨child, -, hrule⟩ := bind_eq_ok_iff.1 hrule
  obtain ⟨param, -, hrule⟩ := bind_eq_ok_iff.1 hrule
  exact ⟨.template function param, rule, hrule, rfl⟩

/-- A rule reaches from its name to the blanks behind the semicolon. -/
theorem located_rule : Located source .rule := by
  intro alternative halternative start stop captures h
  simp only [alternativesOf, List.mem_cons, List.not_mem_nil, or_false] at halternative
  rcases halternative with rfl | rfl
  · obtain ⟨_, _, name, hname, -, -, -⟩ := found_at h 1 rfl
    obtain ⟨_, _, param, hparam, -, -, -⟩ := found_at h 3 rfl
    obtain ⟨_, _, type, htype, -, -, -⟩ := found_at h 6 rfl
    -- the equals sign is one of the items that make the rule longer than nothing
    obtain ⟨_, _, _, -, ⟨-, hequals⟩, hbefore, hafter⟩ := found_at h 7 rfl
    obtain ⟨_, _, alternatives, halternatives, ⟨hcall, -⟩, hstart, hstop⟩ := found_at h 9 rfl
    have hlt := hbefore.trans_lt ((lt_of_progress rfl hequals).trans_le hafter)
    refine ⟨hlt, fun grammar grammar' first hadd hgrammar => ?_⟩
    rw [value_node] at hadd
    simp only [List.map_cons, List.map_nil, hname, hparam, htype, halternatives, Option.map_some,
      Option.getD_some] at hadd
    obtain ⟨head, rule, hrule, rfl⟩ := addTo_templateRule_eq_ok hadd
    obtain ⟨hspan, hplaced⟩ := placed_of_ruleOf hcall hstart hstop hrule
    exact hgrammar.addRule hspan hlt hplaced
  · obtain ⟨_, _, name, hname, -, -, -⟩ := found_at h 0 rfl
    obtain ⟨_, _, type, htype, -, -, -⟩ := found_at h 2 rfl
    obtain ⟨_, _, _, -, ⟨-, hequals⟩, hbefore, hafter⟩ := found_at h 3 rfl
    obtain ⟨_, _, alternatives, halternatives, ⟨hcall, -⟩, hstart, hstop⟩ := found_at h 5 rfl
    have hlt := hbefore.trans_lt ((lt_of_progress rfl hequals).trans_le hafter)
    refine ⟨hlt, fun grammar grammar' first hadd hgrammar => ?_⟩
    rw [value_node] at hadd
    simp only [List.map_cons, List.map_nil, hname, htype, halternatives, Option.map_some,
      Option.getD_some] at hadd
    obtain ⟨head, rule, hrule, rfl⟩ := addTo_rule_eq_ok hadd
    obtain ⟨hspan, hplaced⟩ := placed_of_ruleOf hcall hstart hstop hrule
    exact hgrammar.addRule hspan hlt hplaced

/-! ### Grammars -/

/-- A pasta block reaches from its first mark to the blanks behind the last one. -/
theorem located_pasta : Located source .pasta := by
  refine .only rfl fun start stop captures h => ?_
  obtain ⟨_, _, _, -, ⟨-, hopening⟩, hbefore, hafter⟩ := found_at h 0 rfl
  have hlt := hbefore.trans_lt ((lt_of_progress rfl hopening).trans_le hafter)
  refine ⟨hlt, fun grammar grammar' first hadd hgrammar => ?_⟩
  rw [value_node] at hadd
  obtain ⟨pasta, hpasta, hadd⟩ := bind_eq_ok_iff.1 hadd
  obtain rfl := Except.ok.inj hadd
  obtain ⟨⟨children, span⟩, hnode, hpasta⟩ := bind_eq_ok_iff.1 hpasta
  cases hnode
  obtain ⟨child, -, hpasta⟩ := bind_eq_ok_iff.1 hpasta
  obtain ⟨code, -, hpasta⟩ := bind_eq_ok_iff.1 hpasta
  obtain rfl := Except.ok.inj hpasta
  exact hgrammar.addPasta rfl hlt

/-- An item of a grammar is one of these. -/
theorem located_item : Located source .item := by
  intro alternative halternative start stop captures h
  simp only [alternativesOf, List.mem_cons, List.not_mem_nil, or_false] at halternative
  rcases halternative with rfl | rfl
  · obtain ⟨_, _, _, rfl, ⟨hcall, -⟩, rfl, rfl⟩ := h
    have hfound := found_call hcall
    exact hfound
  · obtain ⟨_, _, _, rfl, ⟨hcall, -⟩, rfl, rfl⟩ := h
    have hfound := found_call hcall
    exact hfound

/-- Declarations that are read one after the other go on with what is placed. -/
theorem placed_of_foldlM {trees : List Value}
    (h : (findingOf source .item).Chain start stop trees) {first : Nat}
    {grammar grammar' : Grammar} (hgrammar : grammar.Placed first start)
    (hread : trees.foldlM addTo grammar = .ok grammar') : grammar'.Placed first stop := by
  induction h generalizing grammar with
  | nil start =>
    obtain rfl := Except.ok.inj hread
    exact hgrammar
  | cons hitem hchain ih =>
    rw [List.foldlM_cons, bind_eq_ok_iff] at hread
    obtain ⟨next, hnext, hread⟩ := hread
    exact ih (hitem.2 grammar next first hnext hgrammar) hread

/-- The items cover the source without a gap, so their spans tile it. -/
theorem located_grammar : Located source .grammar := by
  refine .only rfl fun start stop captures h text htext => ?_
  obtain ⟨first, _, _, rfl, ⟨hblanks, -⟩, _, _, _, rfl, ⟨⟨trees, rfl, hchain⟩, -⟩, rfl, rfl⟩ := h
  refine ⟨first, found_call hblanks text htext, fun grammar hgrammar => ?_⟩
  have hread : Grammar.ofTree (.node "grammar" ⟨start, stop⟩ [.list trees]) = .ok grammar :=
    hgrammar
  rw [ofTree_node] at hread
  exact placed_of_foldlM (chain_call hchain) (Grammar.placed_nil first) hread

/-- Everything that is read is located, by one finding for each rule of the grammar. -/
theorem located (source : List Char) (name : Name) : Located source name := by
  cases name with
  | grammar => exact located_grammar
  | item => exact located_item
  | pasta => exact located_pasta
  | rule => exact located_rule
  | alternatives => exact located_alternatives
  | altTail => exact located_altTail
  | alternative => exact located_alternative
  | mapper => exact located_mapper
  | rep => exact located_rep
  | simple => exact located_simple
  | literal => exact located_leaf rfl rfl (by decide) (by decide)
  | regex => exact located_leaf rfl rfl (by decide) (by decide)
  | any => exact located_leaf rfl rfl (by decide) (by decide)
  | «variable» => exact located_leaf rfl rfl (by decide) (by decide)
  | template => exact located_leaf rfl rfl (by decide) (by decide)
  | group => exact located_group
  | groupItem => exact located_groupItem
  | apply => exact located_apply
  | ws => exact located_ws
  | pastaText | tplHead | typeAnn | mapperText | modifier | applyHead | id =>
    exact fun _ _ _ _ _ _ => trivial

/-! ### Runs -/

/-- The grammar of grammars does not match backward. -/
theorem isForward : program.IsForward := by
  refine ⟨every_isPlain.mono fun m hm => ?_, (Grammar.wellScoped_compile compile_eq).resolved⟩
  cases m with
  | backtrack inner => cases hm
  | external name transformer inner => cases hm
  | regex expression description =>
    exact fun text htext => Regex.matchesEmpty_of_looksBack hm htext
  | _ => trivial

/-- Every success goes as far as is foreseen. -/
theorem progresses (fuel : Nat) (scope : Scope) {m : Matcher} (hm : program.Contains m)
    (input : List Char) (start : Nat) :
    program.Progresses false input start m (program.matcher fuel scope m input start) := by
  have hparams : program.Every fun m => m.isParam = false := by decide +kernel
  refine Program.matcher_progress isForward fuel hm (fun part hpart hparam => ?_) scope.captures
    input start
  rw [hm.every hparams part hpart] at hparam
  cases hparam

/-- What a run of a rule gives is found where the run started and stopped. -/
theorem finding_of_run {events : List Event}
    (hrun : program.runRule name.number source 0 = some (events, .success value stop)) :
    findingOf source name 0 stop value := by
  have hfinds : (program.matcher (program.fuel source + 1) ⟨none, []⟩ (call name) source 0).Ensures
      (fun value stop => (call name).Finds source (findings source) 0 stop value)
      fun _ => True := by
    refine Program.matcher_finds
      (fun fuel scope m hm start => progresses fuel scope hm source start) ?_ _ _ _ _
    intro id rule hrule
    obtain ⟨name, rfl, rfl⟩ := exists_name hrule
    refine ⟨rfl, fun alternative halternative start stop captures hcaptures name' hname' => ?_⟩
    rw [number_inj hname']
    exact located source name alternative halternative start stop captures hcaptures
  exact found_call (hfinds.success hrun)

end Meta

end Peg
