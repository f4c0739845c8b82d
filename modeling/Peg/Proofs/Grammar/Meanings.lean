/-
Peg/Proofs/Grammar/Meanings.lean

Meanings for the rules of the grammar of grammars.

A meaning is given to each rule by its name.  If the alternatives of every
rule have the meaning of the rule, as far as the rules they call have theirs,
then everything that reading a grammar gives has its meaning.
-/
import Peg.Proofs.Grammar.Token
import Peg.Proofs.Program.Yields

namespace Peg.Meta

open Text Regex

/-! ### Numbers of rules -/

theorem getElem?_all (name : Name) : Name.all[name.number]? = some name := by
  cases name <;> rfl

theorem number_inj {name name' : Name} (h : name.number = name'.number) : name = name' := by
  have hname := getElem?_all name
  rw [h, getElem?_all name', Option.some.injEq] at hname
  exact hname.symm

theorem exists_name {id : Nat} {rule : CompiledRule} (h : program.rules[id]? = some rule) :
    ∃ name : Name, name.number = id ∧ rule = compiledRule name := by
  have hnumbers : ∀ id < Name.all.length, (Name.all[id]?).map Name.number = some id := by decide
  rw [program, List.getElem?_map, Option.map_eq_some_iff] at h
  obtain ⟨name, hname, rfl⟩ := h
  have hnumber := hnumbers id (List.getElem?_eq_some_iff.1 hname).1
  rw [hname, Option.map_some, Option.some.injEq] at hnumber
  exact ⟨name, hnumber, rfl⟩

/-! ### Alternatives -/

/-- Meanings by the numbers of the rules. -/
def byNumber (meaningOf : Name → Meaning) : Nat → Meaning :=
  fun id word rest value => ∀ name : Name, name.number = id → meaningOf name word rest value

/-- The alternatives of a rule have its meaning. -/
def HasMeaning (meaningOf : Name → Meaning) (name : Name) : Prop :=
  ∀ alternative ∈ alternativesOf name, ∀ word rest values,
    YieldsAll (byNumber meaningOf) alternative.items word rest values →
      meaningOf name word rest (alternative.shape values word)

variable {meaningOf : Name → Meaning} {name : Name} {word rest : List Char} {value : Value}

/-- A rule of one alternative. -/
theorem HasMeaning.only {alternative : CompiledAlternative}
    (hname : alternativesOf name = [alternative])
    (h : ∀ word rest values, YieldsAll (byNumber meaningOf) alternative.items word rest values →
      meaningOf name word rest (alternative.shape values word)) : HasMeaning meaningOf name := by
  intro alternative' halternative
  rw [hname, List.mem_singleton] at halternative
  rw [halternative]
  exact h

/-- The node of an alternative has the values of some of its items. -/
theorem shape_node (items : List Matcher) (kind : String) (captures : List Nat)
    (values : List Value) (word : List Char) : (node items kind captures).shape values word =
      .node kind {} (captures.map fun index => (values[index]?).getD .absent) := by
  have harguments : MapperExpr.shapeOfAll values word (captures.map .capture) =
      captures.map fun index => (values[index]?).getD .absent := by
    induction captures with
    | nil => rfl
    | cons index captures ih => rw [List.map_cons, MapperExpr.shapeOfAll, ih]; rfl
  rw [← harguments]
  rfl

/-- A rule of one alternative that gives a node. -/
theorem HasMeaning.node {items : List Matcher} {kind : String} {captures : List Nat}
    (hname : alternativesOf name = [node items kind captures])
    (h : ∀ word rest values, YieldsAll (byNumber meaningOf) items word rest values →
      meaningOf name word rest
        (.node kind {} (captures.map fun index => (values[index]?).getD .absent))) :
    HasMeaning meaningOf name := by
  refine .only hname fun word rest values hvalues => ?_
  rw [shape_node]
  exact h word rest values hvalues

theorem yields_call (h : (call name).Yields (byNumber meaningOf) word rest value) :
    meaningOf name word rest value :=
  h name rfl

/-- The values of a repeated rule. -/
theorem forall_of_many {values : List Value}
    (h : Meaning.Many ((call name).Yields (byNumber meaningOf)) word rest values) :
    ∀ value ∈ values, ∃ word rest, meaningOf name word rest value := by
  intro value hvalue
  obtain ⟨word, rest, hyields⟩ := h.forall value hvalue
  exact ⟨word, rest, yields_call hyields⟩

theorem accepts_of_yields {meanings : Nat → Meaning} (token : Token)
    (h : token.matcher.Yields meanings word rest value) :
    value = .str (String.ofList word) ∧ token.expression.Accepts word := by
  obtain ⟨hlength, hvalue⟩ := h
  obtain ⟨word', rest', htext, hsize, haccepts⟩ := accepts_of_matchLength? hlength
  obtain ⟨rfl, rfl⟩ := append_inj_of_size htext hsize
  -- the anchor accepts nothing but the empty word
  obtain ⟨left, right, rfl, hanchor, htoken⟩ := accepts_seq_iff.1 haccepts
  cases hanchor
  exact ⟨hvalue, htoken⟩

/-! ### Runs -/

theorem agrees (h : ∀ name, HasMeaning meaningOf name) {id : Nat} {rule : CompiledRule}
    (hrule : program.rules[id]? = some rule) :
    Program.Agrees (byNumber meaningOf) (byNumber meaningOf id) rule := by
  obtain ⟨name, rfl, rfl⟩ := exists_name hrule
  have hrules : ∀ rule ∈ program.rules, ∀ alternative ∈ rule.alternatives,
      (∀ item ∈ alternative.items, item.isBasic = true) ∧ alternative.isPositionless = true := by
    decide +kernel
  have hforms := hrules _ (List.mem_of_getElem? hrule)
  refine ⟨rfl, fun alternative halternative => (hforms alternative halternative).1,
    fun alternative halternative => (hforms alternative halternative).2, ?_⟩
  intro alternative halternative word rest values hvalues name' hname'
  rw [number_inj hname']
  exact h name alternative halternative word rest values hvalues

/-- What a run of a rule gives has the meaning of the rule. -/
theorem meaning_of_run (h : ∀ name, HasMeaning meaningOf name) {source : List Char}
    {events : List Event} {stop : Nat}
    (hrun : program.runRule name.number source 0 = some (events, .success value stop)) :
    ∃ word rest, meaningOf name word rest value.eraseSpans := by
  have hmeans := Program.matcher_means (fun id rule => agrees h) (program.fuel source)
  have hreading : (program.runRule name.number source 0).Ensures
      (Reading (byNumber meaningOf name.number).OfValue source 0) fun _ => True :=
    Program.matchRule_reading hmeans (fun rule => agrees h) none (dropBytes?_zero source)
  obtain ⟨word, rest, -, -, hmeaning⟩ := hreading.success hrun
  exact ⟨word, rest, hmeaning name rfl⟩

end Peg.Meta
