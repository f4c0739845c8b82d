/-
Peg/Proofs/Grammar/Sound.lean

What is read can be written.

Every rule of the grammar of grammars has a meaning: the grammars, rules,
patterns and so on that its values stand for are ones that can be written.
Most of this is put together from the parts.  It rests on the tokens, on the
blanks before a declared type and on the end of a pasta block.

Values are without spans here, and so are the grammars they stand for.
-/
import Peg.Proofs.Grammar.Meanings
import Peg.Proofs.Grammar.ReadGrammar
import Peg.Proofs.Program.Resolve

namespace Peg

open Text Regex

namespace Meta

/-! ### Meanings of rules -/

/-- A declared type as it is read. -/
structure IsTypeSource (type : List Char) : Prop where
  ends : ∀ c ∈ type, c ≠ '=' ∧ c ≠ ';'
  solid : Solid type

/-- What the values of a rule stand for can be written. -/
def meaningOf : Name → Meaning
  | .grammar => fun _ _ value => ∀ grammar, Grammar.ofTree value = .ok grammar → grammar.Printable
  | .item | .pasta | .rule => fun _ _ value => ∀ grammar grammar',
    Tree.addTo grammar value = .ok grammar' → grammar.Printable → grammar'.Printable
  | .pastaText => fun word _ value => value = .str (String.ofList word) ∧ ¬ pastaEnd <:+: word
  | .tplHead | .applyHead | .modifier => fun _ _ _ => True
  | .typeAnn => fun _ _ value => ∃ type, value = .str type ∧ IsTypeSource type.toList
  | .alternatives => fun _ _ value => ∃ trees, value = .list trees ∧ trees ≠ [] ∧
    ∀ tree ∈ trees, ∀ alternative, Tree.alternative tree = .ok alternative → alternative.Printable
  | .altTail | .alternative => fun _ _ value => ∀ alternative,
    Tree.alternative value = .ok alternative → alternative.Printable
  | .mapper => fun _ _ value => ∀ code, Tree.mapper value = .ok (some code) → IsMapperText code.code
  | .mapperText => fun word _ value =>
    value = .str (String.ofList word) ∧ Token.mapper.expression.Accepts word
  | .rep => fun _ _ value => ∀ important item,
    Tree.repeatable important value = .ok item → item.Printable
  | .groupItem => fun _ _ value => ∀ item, Tree.groupItem value = .ok item → item.Printable
  | .simple | .literal | .regex | .any | .variable | .group | .template | .apply =>
    fun _ _ value => ∀ pattern, Tree.pattern value = .ok pattern → pattern.Printable
  | .id => fun _ _ value => ∃ name, value = .str name ∧ IsIdentifier name
  | .ws => fun _ rest _ => Solid rest

def meanings : Nat → Meaning :=
  byNumber meaningOf

/-- The alternatives of a rule have its meaning. -/
abbrev Sound (name : Name) : Prop :=
  HasMeaning meaningOf name

variable {word rest : List Char} {value : Value}

/-! ### Names and blanks -/

theorem sound_id : Sound .id := by
  refine .only rfl fun word rest values h => ?_
  obtain ⟨_, rfl, htoken⟩ := h.single
  obtain ⟨rfl, haccepts⟩ := accepts_of_yields .id htoken
  obtain ⟨c, cs, rfl, hc, hcs⟩ := accepts_id haccepts
  exact ⟨_, rfl, isIdentifier_iff.2 ⟨c, cs, String.toList_ofList, hc, hcs⟩⟩

/-- Blanks and comments give no value that anything is made of. -/
theorem sound_ws : Sound .ws := by
  refine .only rfl fun word rest values h => ?_
  obtain ⟨_, rfl, hlength, -⟩ := h.single
  have hbest := (matchLength?_textStart _ _).symm.trans hlength
  obtain ⟨word', htext, hsize⟩ := skipLayout_of_blanks hbest
  obtain ⟨-, hrest⟩ := append_inj_of_size htext hsize
  have hsolid := (reads_layout false (word ++ rest)).1
  rw [← hrest] at hsolid
  exact hsolid

/-- A name that may be absent. -/
theorem optional_name (h : (optional (call .id)).Yields meanings word rest value) :
    ∃ function : Option String, value = .ofText function ∧
      ∀ name ∈ function, IsIdentifier name := by
  rcases h with h | ⟨-, rfl⟩
  · obtain ⟨name, rfl, hname⟩ := yields_call h
    refine ⟨some name, rfl, fun name' hname' => ?_⟩
    rw [← Option.some.inj hname']
    exact hname
  · exact ⟨none, rfl, nofun⟩

/-! ### Single patterns -/

/-- The text between the quotes is one that a literal can be written as. -/
theorem sound_literal : Sound .literal := by
  refine .only rfl fun word rest values h pattern hpattern => ?_
  obtain ⟨_, rfl, htoken⟩ := h.single
  obtain ⟨rfl, -⟩ := accepts_of_yields .literal htoken
  obtain rfl := Except.ok.inj ((Tree.pattern_literal {} _).symm.trans hpattern)
  trivial

/-- The source and the flags are what a regular expression can be written with. -/
theorem sound_regex : Sound .regex := by
  refine .only rfl fun word rest values h pattern hpattern => ?_
  obtain ⟨_, rfl, htoken⟩ := h.single
  obtain ⟨rfl, haccepts⟩ := accepts_of_yields .regex htoken
  obtain ⟨source, flags, rfl, hsource, hflags⟩ := accepts_regex haccepts
  rw [Token.covers_flags_iff] at hflags
  have hdecode := Tree.pattern_regex {} (String.ofList ('/' :: (source ++ '/' :: flags)))
  rw [Token.decodeRegex_of_flags (Token.not_mem_flags hflags)] at hdecode
  obtain rfl := Except.ok.inj (hdecode.symm.trans hpattern)
  refine ⟨?_, ?_⟩
  · rw [String.toList_ofList]
    exact Token.regexSource_plainSlashes hsource
  · rw [String.toList_ofList]
    exact hflags

theorem sound_any : Sound .any := by
  refine .only rfl fun word rest values h pattern hpattern => ?_
  obtain rfl := Except.ok.inj ((Tree.pattern_any {}).symm.trans hpattern)
  trivial

theorem sound_variable : Sound .variable := by
  refine .only rfl fun word rest values h pattern hpattern => ?_
  obtain ⟨_, rfl, htoken⟩ := h.single
  obtain ⟨rfl, -⟩ := accepts_of_yields .variable htoken
  have hvariable := (Tree.pattern_variable {} _).symm.trans hpattern
  split at hvariable
  · rename_i index hindex
    obtain rfl := Except.ok.inj hvariable
    exact Token.lt_of_decodeVariable? hindex
  · cases hvariable

/-- The argument is read up to the next backquote, so it holds none. -/
theorem sound_template : Sound .template := by
  refine .only rfl fun word rest values h pattern hpattern => ?_
  obtain ⟨_, _, _, _, rfl, rfl, hname, _, _, _, _, rfl, rfl, -, h⟩ := h
  obtain ⟨_, _, _, _, rfl, rfl, htoken, -⟩ := h
  obtain ⟨function, rfl, hfunction⟩ := optional_name hname
  obtain ⟨rfl, haccepts⟩ := accepts_of_yields .template htoken
  obtain rfl := Except.ok.inj ((Tree.pattern_template {} function _).symm.trans hpattern)
  refine ⟨hfunction, ?_⟩
  rw [String.toList_ofList]
  exact fun hmem => absurd (covers_of_accepts_template haccepts _ hmem) (by decide)

/-- An application has the name of a function and a pattern, which is sound already. -/
theorem sound_apply : Sound .apply := by
  refine .node rfl fun word rest values h pattern hpattern => ?_
  obtain ⟨_, _, name, hname, hcall⟩ := h.get 0 rfl
  obtain ⟨_, _, tree, htree, hsimple⟩ := h.get 3 rfl
  obtain ⟨name, rfl, hidentifier⟩ := yields_call hcall
  simp only [List.map_cons, List.map_nil, hname, htree, Option.getD_some] at hpattern
  rw [Tree.pattern_apply, map_eq_ok_iff] at hpattern
  obtain ⟨inner, hinner, rfl⟩ := hpattern
  exact ⟨hidentifier, yields_call hsimple inner hinner⟩

/-! ### Members and groups -/

theorem sound_modifier : Sound .modifier :=
  fun _ _ _ _ _ _ => trivial

/-- A repetition is that of a pattern with a modifier or without. -/
theorem sound_rep : Sound .rep := by
  refine .node rfl fun word rest values h important item hitem => ?_
  obtain ⟨_, _, tree, htree, hsimple⟩ := h.get 0 rfl
  simp only [List.map_cons, List.map_nil, htree, Option.getD_some] at hitem
  rw [Tree.repeatable_node, bind_eq_ok_iff] at hitem
  obtain ⟨text, -, hrep⟩ := hitem
  obtain ⟨repetition, -, hrep⟩ := bind_eq_ok_iff.1 hrep
  obtain ⟨pattern, hpattern, hrep⟩ := bind_eq_ok_iff.1 hrep
  obtain rfl := Except.ok.inj hrep
  exact yields_call hsimple pattern hpattern

/-- The mark of an important item changes nothing in the pattern. -/
theorem sound_groupItem : Sound .groupItem := by
  refine .node rfl fun word rest values h item hitem => ?_
  obtain ⟨_, _, tree, htree, hrep⟩ := h.get 2 rfl
  simp only [List.map_cons, List.map_nil, htree, Option.getD_some] at hitem
  rw [Tree.groupItem_node] at hitem
  exact yields_call hrep _ item hitem

/-- What holds of every single result holds of all of them, and there is one if there is a tree. -/
theorem forall_of_mapM {α : Type} {P : α → Prop} {f : Value → Except CompileError α}
    {trees : List Value} {results : List α} (hne : trees ≠ []) (hread : trees.mapM f = .ok results)
    (h : ∀ tree ∈ trees, ∀ result, f tree = .ok result → P result) :
    results ≠ [] ∧ ∀ result ∈ results, P result := by
  refine ⟨ne_nil_of_mapM hne hread, fun result hresult => ?_⟩
  obtain ⟨tree, htree, hresult⟩ := exists_of_mem_right (mapM_eq_ok_iff.1 hread) hresult
  exact h tree htree result hresult

/-- The items of a group are read one by one. -/
theorem sound_group : Sound .group := by
  refine .node rfl fun word rest values h pattern hpattern => ?_
  obtain ⟨_, _, list, hlist, trees, rfl, hne, hmany⟩ := h.get 2 rfl
  simp only [List.map_cons, List.map_nil, hlist, Option.getD_some] at hpattern
  rw [Tree.pattern_group, map_eq_ok_iff, Tree.groupItems_eq_mapM] at hpattern
  obtain ⟨items, hitems, rfl⟩ := hpattern
  obtain ⟨hnonempty, hprintable⟩ := forall_of_mapM hne hitems fun tree htree => by
    obtain ⟨_, _, hmeaning⟩ := forall_of_many hmany tree htree
    exact hmeaning
  exact ⟨hnonempty, allPrintable_iff.2 hprintable⟩

theorem sound_tplHead : Sound .tplHead :=
  fun _ _ _ _ _ _ => trivial

theorem sound_applyHead : Sound .applyHead :=
  fun _ _ _ _ _ _ => trivial

/-- The patterns that are told by their first character are patterns. -/
theorem meaningOf_opening {opening : Name × Char} (h : opening ∈ openings) :
    meaningOf opening.1 = meaningOf .simple := by
  simp only [openings, List.mem_cons, List.not_mem_nil, or_false] at h
  rcases h with rfl | rfl | rfl | rfl | rfl <;> rfl

/-- Each of the alternatives is sound, and one of them has been read. -/
theorem sound_simple : Sound .simple := by
  intro alternative halternative word rest values h pattern hpattern
  rw [alternativesOf_simple] at halternative
  rcases List.mem_append.1 halternative with htold | hlook
  · obtain ⟨opening, hopening, rfl⟩ := List.mem_map.1 htold
    obtain ⟨_, rfl, hcall⟩ := h.single
    have hmeaning := yields_call hcall
    rw [meaningOf_opening hopening] at hmeaning
    exact hmeaning pattern hpattern
  · simp only [List.mem_cons, List.not_mem_nil, or_false] at hlook
    rcases hlook with rfl | rfl | rfl
    · obtain ⟨_, _, _, _, rfl, rfl, -, _, _, _, _, rfl, rfl, hcall, rfl, rfl⟩ := h
      exact yields_call hcall pattern hpattern
    · obtain ⟨_, _, _, _, rfl, rfl, -, _, _, _, _, rfl, rfl, hcall, rfl, rfl⟩ := h
      exact yields_call hcall pattern hpattern
    · obtain ⟨_, rfl, hcall⟩ := h.single
      obtain ⟨name, rfl, hname⟩ := yields_call hcall
      obtain rfl := Except.ok.inj ((Tree.pattern_id {} name).symm.trans hpattern)
      exact hname

/-! ### Alternatives -/

/-- The code of a mapper is made of whole lines that do not begin the next thing. -/
theorem sound_mapperText : Sound .mapperText := by
  refine .only rfl fun word rest values h => ?_
  obtain ⟨_, rfl, htoken⟩ := h.single
  obtain ⟨rfl, haccepts⟩ := accepts_of_yields .mapper htoken
  exact ⟨rfl, haccepts⟩

/-- Brought to the form that is printed, the code is that of a mapper. -/
theorem sound_mapper : Sound .mapper := by
  refine .node rfl fun word rest values h code hcode => ?_
  obtain ⟨word', _, text, htext, hcall⟩ := h.get 1 rfl
  obtain ⟨rfl, haccepts⟩ := yields_call hcall
  simp only [List.map_cons, List.map_nil, htext, Option.getD_some] at hcode
  rw [Tree.mapper_node] at hcode
  have hsome := Except.ok.inj hcode
  split at hsome
  · cases hsome
  · rename_i hne
    obtain rfl := Option.some.inj hsome
    exact Token.isMapperText_of_accepts haccepts (by rwa [String.isEmpty_iff] at hne)

/-- An item of an alternative is a member of a group without its mark. -/
theorem printable_item {tree : Value} (h : ∃ word rest, meaningOf .rep word rest tree)
    {item : Item} (hitem : Tree.item tree = .ok item) : item.Printable := by
  obtain ⟨_, _, hmeaning⟩ := h
  obtain ⟨groupItem, hgroupItem, hitem⟩ := bind_eq_ok_iff.1 hitem
  obtain rfl := Except.ok.inj hitem
  have hprintable := hmeaning false groupItem hgroupItem
  obtain ⟨important, pattern, repetition, span⟩ := groupItem
  exact hprintable

/-- An alternative has its items and perhaps a mapper. -/
theorem sound_alternative : Sound .alternative := by
  refine .node rfl fun word rest values h alternative halternative => ?_
  obtain ⟨_, _, list, hlist, trees, rfl, hne, hmany⟩ := h.get 0 rfl
  obtain ⟨_, _, code, hcode, hmapper⟩ := h.get 1 rfl
  simp only [List.map_cons, List.map_nil, hlist, hcode, Option.getD_some] at halternative
  rw [Tree.alternative_node, bind_eq_ok_iff] at halternative
  obtain ⟨items, hitems, hnode⟩ := halternative
  obtain ⟨mapper, hread, hnode⟩ := bind_eq_ok_iff.1 hnode
  obtain rfl := Except.ok.inj hnode
  obtain ⟨hnonempty, hprintable⟩ := forall_of_mapM hne hitems fun tree htree item =>
    printable_item (forall_of_many hmany tree htree)
  refine ⟨hnonempty, hprintable, fun mapper' hmapper' => ?_⟩
  obtain rfl := Option.mem_def.1 hmapper'
  rcases hmapper with hmapper | ⟨-, rfl⟩
  · exact yields_call hmapper mapper' hread
  · cases hread

/-- A further alternative comes after a bar. -/
theorem sound_altTail : Sound .altTail := by
  refine .only rfl fun word rest values h => ?_
  obtain ⟨_, _, tree, htree, hcall⟩ := h.get 2 rfl
  show ∀ alternative, Tree.alternative ((values[2]?).getD .absent) = .ok alternative →
    alternative.Printable
  rw [htree]
  exact yields_call hcall

/-- There is a first alternative, and then further ones. -/
theorem sound_alternatives : Sound .alternatives := by
  refine .only rfl fun word rest values h => ?_
  obtain ⟨_, _, _, _, rfl, rfl, hfirst, _, _, _, _, rfl, rfl, ⟨trees, rfl, hmany⟩, rfl, rfl⟩ := h
  refine ⟨_ :: trees, rfl, List.cons_ne_nil _ _, List.forall_mem_cons.2 ⟨yields_call hfirst, ?_⟩⟩
  intro tree htree
  obtain ⟨_, _, hmeaning⟩ := forall_of_many hmany tree htree
  exact hmeaning

/-! ### Declared types -/

/-- A declared type goes on to the equals sign, which it does not hold. -/
theorem sound_typeAnn : Sound .typeAnn := by
  refine .only rfl fun word rest values h => ?_
  obtain ⟨_, _, _, _, rfl, rfl, -, _, _, _, _, rfl, rfl, hws, _, _, _, _, rfl, rfl, htoken, rfl,
    rfl⟩ := h
  rename_i type _
  obtain ⟨rfl, haccepts⟩ := accepts_of_yields .type htoken
  obtain ⟨hblank, hdashes⟩ : Solid (type ++ [] ++ rest) := yields_call hws
  rw [List.append_nil] at hblank hdashes
  refine ⟨_, rfl, ?_⟩
  rw [String.toList_ofList]
  refine ⟨fun c hc => ?_, fun c hc => ?_, fun hbegins => ?_⟩
  · have hcovers := covers_of_accepts_type haccepts c hc
    simpa [typeSet] using hcovers
  · obtain ⟨cs, rfl⟩ := List.head?_eq_some_iff.1 hc
    exact CharSet.avoids_cons.1 hblank
  · exact hdashes (hbegins.trans (List.prefix_append type rest))

/-- A declared type that is read, trimmed, can be written. -/
theorem isTypeText_trim {type : List Char} (h : IsTypeSource type) (hne : trim type ≠ []) :
    IsTypeText (trim type) := by
  refine ⟨hne, isTrimmed_iff.1 (isTrimmed_trim type), fun c hc => h.ends c (mem_of_mem_trim hc),
    fun hbegins => ?_⟩
  have hdrop : type.dropWhile isBlank = type := dropWhile_of_head? h.solid.1
  have htrim := trim_prefix type
  rw [hdrop] at htrim
  exact h.solid.2 (hbegins.trans htrim)

/-- The type of a rule is the text that was read, without blanks around it. -/
theorem isTypeText_of_declaredType {type : Option String}
    (h : (optional (call .typeAnn)).Yields meanings word rest value)
    (htype : Tree.declaredType value = .ok type) : ∀ type' ∈ type, IsTypeText type'.toList := by
  rintro type' rfl
  rcases h with h | ⟨-, rfl⟩
  · obtain ⟨source, rfl, hsource⟩ := yields_call h
    rw [Tree.declaredType_str] at htype
    have hsome := Except.ok.inj htype
    split at hsome
    · cases hsome
    · rename_i hne
      obtain rfl := Option.some.inj hsome
      rw [String.toList_ofList]
      exact isTypeText_trim hsource (by rwa [List.isEmpty_iff] at hne)
  · cases htype

/-! ### Rules -/

/-- A rule whose type and alternatives were read can be printed. -/
theorem printable_of_ruleOf {head : RuleHead} (hhead : head.Printable) {type alternatives : Value}
    (htype : (optional (call .typeAnn)).Yields meanings word rest type)
    {word' rest' : List Char}
    (halternatives : (call .alternatives).Yields meanings word' rest' alternatives)
    {rule : Rule} (h : Tree.ruleOf head type alternatives {} = .ok rule) : rule.Printable := by
  obtain ⟨trees, rfl, hne, hmeaning⟩ := yields_call halternatives
  rw [Tree.ruleOf_list, bind_eq_ok_iff] at h
  obtain ⟨declared, hdeclared, h⟩ := h
  obtain ⟨alternatives, halternatives, h⟩ := bind_eq_ok_iff.1 h
  obtain rfl := Except.ok.inj h
  obtain ⟨hnonempty, hprintable⟩ := forall_of_mapM hne halternatives hmeaning
  exact ⟨hhead, isTypeText_of_declaredType htype hdeclared, hnonempty, hprintable⟩

/-- One more rule that can be printed does not keep a grammar from it. -/
theorem printable_addRule {grammar : Grammar} (h : grammar.Printable) {rule : Rule}
    (hrule : rule.Printable) :
    ({ grammar with rules := grammar.rules ++ [rule] } : Grammar).Printable := by
  refine ⟨h.pastas, fun rule' hrule' => ?_⟩
  rcases List.mem_append.1 hrule' with hrule' | hrule'
  · exact h.rules rule' hrule'
  · rw [List.mem_singleton.1 hrule']
    exact hrule

/-- Both kinds of rules, with their heads. -/
theorem sound_rule : Sound .rule := by
  intro alternative halternative word rest values h grammar grammar' hadd hgrammar
  simp only [alternativesOf, List.mem_cons, List.not_mem_nil, or_false] at halternative
  -- a template with its parameter, or a simple rule; the children are found by their places
  rcases halternative with rfl | rfl
  · obtain ⟨_, _, name, hname, hoptional⟩ := h.get 1 rfl
    obtain ⟨_, _, param, hparam, hcall⟩ := h.get 3 rfl
    obtain ⟨_, _, type, htype, hdeclared⟩ := h.get 6 rfl
    obtain ⟨_, _, alternatives, halternatives, hbody⟩ := h.get 9 rfl
    obtain ⟨function, rfl, hfunction⟩ := optional_name hoptional
    obtain ⟨param, rfl, hidentifier⟩ := yields_call hcall
    rw [shape_node] at hadd
    simp only [List.map_cons, List.map_nil, hname, hparam, htype, halternatives,
      Option.getD_some] at hadd
    rw [Tree.addTo_templateRule, map_eq_ok_iff] at hadd
    obtain ⟨rule, hrule, rfl⟩ := hadd
    have hhead : (RuleHead.template function param).Printable := ⟨hfunction, hidentifier⟩
    exact printable_addRule hgrammar (printable_of_ruleOf hhead hdeclared hbody hrule)
  · obtain ⟨_, _, name, hname, hcall⟩ := h.get 0 rfl
    obtain ⟨_, _, type, htype, hdeclared⟩ := h.get 2 rfl
    obtain ⟨_, _, alternatives, halternatives, hbody⟩ := h.get 5 rfl
    obtain ⟨name, rfl, hidentifier⟩ := yields_call hcall
    rw [shape_node] at hadd
    simp only [List.map_cons, List.map_nil, hname, htype, halternatives, Option.getD_some] at hadd
    rw [Tree.addTo_rule, map_eq_ok_iff] at hadd
    obtain ⟨rule, hrule, rfl⟩ := hadd
    have hhead : (RuleHead.simple name).Printable := hidentifier
    exact printable_addRule hgrammar (printable_of_ruleOf hhead hdeclared hbody hrule)

/-! ### Grammars -/

/-- No end of a pasta block is in its text, or the text would have ended there. -/
theorem pastaEnd_not_inside {values : List Value}
    (h : Meaning.Many (Matcher.Yields meanings (.negative (.literal "\x7d%"))) word rest values) :
    ¬ pastaEnd <:+: word := by
  induction h with
  | nil rest => exact fun h => absurd (List.infix_nil.1 h) (by decide)
  | cons h hmany ih =>
    obtain ⟨c, rfl, -, hrefuses⟩ := h
    rintro hinside
    rcases List.infix_cons_iff.1 hinside with hbegins | hinside
    · exact hrefuses (hbegins.trans (List.prefix_append _ _))
    · exact ih hinside

theorem sound_pastaText : Sound .pastaText := by
  refine .only rfl fun word rest values h => ?_
  obtain ⟨_, rfl, values, rfl, hmany⟩ := h.single
  exact ⟨rfl, pastaEnd_not_inside hmany⟩

/-- A pasta block has its text between the two marks. -/
theorem sound_pasta : Sound .pasta := by
  refine .node rfl fun word rest values h grammar grammar' hadd hgrammar => ?_
  obtain ⟨code, _, text, htext, hcall⟩ := h.get 1 rfl
  obtain ⟨rfl, hcode⟩ := yields_call hcall
  simp only [List.map_cons, List.map_nil, htext, Option.getD_some] at hadd
  rw [Tree.addTo_pasta] at hadd
  obtain rfl := Except.ok.inj hadd
  refine ⟨fun pasta hpasta => ?_, hgrammar.rules⟩
  rcases List.mem_append.1 hpasta with hpasta | hpasta
  · exact hgrammar.pastas pasta hpasta
  · rw [List.mem_singleton.1 hpasta]
    show ¬ pastaEnd <:+: (String.ofList code).toList
    rw [String.toList_ofList]
    exact hcode

/-- A grammar is made of pasta blocks and rules. -/
theorem sound_item : Sound .item := by
  intro alternative halternative word rest values h
  simp only [alternativesOf, List.mem_cons, List.not_mem_nil, or_false] at halternative
  rcases halternative with rfl | rfl
  · obtain ⟨_, rfl, hcall⟩ := h.single
    have hpasta := yields_call hcall
    exact hpasta
  · obtain ⟨_, rfl, hcall⟩ := h.single
    have hrule := yields_call hcall
    exact hrule

/-- Items are added one after the other, and the grammar stays printable. -/
theorem printable_of_foldlM {trees : List Value}
    (h : ∀ tree ∈ trees, ∃ word rest, meaningOf .item word rest tree) {grammar grammar' : Grammar}
    (hgrammar : grammar.Printable) (hread : trees.foldlM Tree.addTo grammar = .ok grammar') :
    grammar'.Printable := by
  induction trees generalizing grammar with
  | nil =>
    obtain rfl := Except.ok.inj hread
    exact hgrammar
  | cons tree trees ih =>
    obtain ⟨⟨_, _, htree⟩, htrees⟩ := List.forall_mem_cons.1 h
    rw [List.foldlM_cons, bind_eq_ok_iff] at hread
    obtain ⟨next, hnext, hread⟩ := hread
    exact ih htrees (htree grammar next hnext hgrammar) hread

/-- The grammar of all that was read can be printed. -/
theorem sound_grammar : Sound .grammar := by
  refine .node rfl fun word rest values h grammar hgrammar => ?_
  obtain ⟨_, _, list, hlist, trees, rfl, hmany⟩ := h.get 1 rfl
  simp only [List.map_cons, List.map_nil, hlist, Option.getD_some] at hgrammar
  rw [Tree.ofTree_node] at hgrammar
  have hempty : ({} : Grammar).Printable := ⟨nofun, nofun⟩
  exact printable_of_foldlM (forall_of_many hmany) hempty hgrammar

/-- What the grammar of grammars reads under any name can be written by the printer. -/
theorem sound (name : Name) : Sound name := by
  cases name with
  | grammar => exact sound_grammar
  | item => exact sound_item
  | pasta => exact sound_pasta
  | pastaText => exact sound_pastaText
  | rule => exact sound_rule
  | tplHead => exact sound_tplHead
  | typeAnn => exact sound_typeAnn
  | alternatives => exact sound_alternatives
  | altTail => exact sound_altTail
  | alternative => exact sound_alternative
  | mapper => exact sound_mapper
  | mapperText => exact sound_mapperText
  | rep => exact sound_rep
  | modifier => exact sound_modifier
  | simple => exact sound_simple
  | applyHead => exact sound_applyHead
  | literal => exact sound_literal
  | regex => exact sound_regex
  | any => exact sound_any
  | «variable» => exact sound_variable
  | group => exact sound_group
  | groupItem => exact sound_groupItem
  | template => exact sound_template
  | apply => exact sound_apply
  | id => exact sound_id
  | ws => exact sound_ws

end Meta

end Peg
