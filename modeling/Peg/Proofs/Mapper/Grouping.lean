/-
Peg/Proofs/Mapper/Grouping.lean

Parentheses in sums.

A sum inside a sum may be replaced by its terms, and consecutive terms of a
sum may be put into a sum of their own, anywhere in an expression.  A chain of
such steps is a regrouping:

    ReflTransGen Regroups expr expr'

Sums of values are associative, so a step does not change the value of the sum
that it is made in (`evaluate_opened`), nor of anything around it
(`Regroups.evaluate_eq`), and so a regrouping does not either
(`evaluate_of_regroups`).

A sum without terms is the exception: its value is the absent one, which counts
for something among other terms, and it is gone once the sum is replaced by its
terms.  No expression that is read from a text has one (`sumsHaveTerms_of_parse`),
and no step makes one (`Regroups.sumsHaveTerms`).
-/
import Mathlib.Logic.Relation
import Peg.Proofs.Mapper.Derivation
import Peg.Proofs.Program.Same
import Peg.Proofs.Value.Sum

namespace Peg

namespace MapperExpr

variable {expr expr' : MapperExpr} {captures : List Capture} {input : List Char} {span : Span}

/-! ### Sums with terms -/

mutual

/-- Whether every sum in an expression has terms. -/
def sumsHaveTerms : MapperExpr → Bool
  | .capture _ | .startOf _ | .endOf _ | .text | .start | .stop | .str _ => true
  | .list items => allSumsHaveTerms items
  | .node _ arguments => allSumsHaveTerms arguments
  | .concat terms => !terms.isEmpty && allSumsHaveTerms terms

/-- Whether every sum in several expressions has terms. -/
def allSumsHaveTerms : List MapperExpr → Bool
  | [] => true
  | expr :: exprs => expr.sumsHaveTerms && allSumsHaveTerms exprs

end

@[simp] theorem allSumsHaveTerms_nil : allSumsHaveTerms [] = true := rfl

@[simp] theorem allSumsHaveTerms_cons (expr : MapperExpr) (exprs : List MapperExpr) :
    allSumsHaveTerms (expr :: exprs) = (expr.sumsHaveTerms && allSumsHaveTerms exprs) := rfl

@[simp] theorem allSumsHaveTerms_append (before after : List MapperExpr) :
    allSumsHaveTerms (before ++ after) = (allSumsHaveTerms before && allSumsHaveTerms after) := by
  induction before with
  | nil => simp
  | cons expr before ih => simp [ih, Bool.and_assoc]

/-- One of several expressions, with those before and after it. -/
theorem allSumsHaveTerms_middle_iff {before after : List MapperExpr} :
    allSumsHaveTerms (before ++ expr :: after) = true ↔
      allSumsHaveTerms before = true ∧ expr.sumsHaveTerms = true ∧
        allSumsHaveTerms after = true := by
  simp

theorem sumsHaveTerms_concat_iff {terms : List MapperExpr} :
    (concat terms).sumsHaveTerms = true ↔ terms ≠ [] ∧ allSumsHaveTerms terms = true := by
  simp [sumsHaveTerms]

/-- A sum with a term that is told apart from the others. -/
theorem sumsHaveTerms_concat_middle_iff {before after : List MapperExpr} :
    (concat (before ++ expr :: after)).sumsHaveTerms = true ↔
      allSumsHaveTerms (before ++ expr :: after) = true := by
  rw [sumsHaveTerms_concat_iff]
  simp

mutual

/-- The grammar of expressions derives no sum without terms. -/
theorem IsSum.sumsHaveTerms : ∀ {cs : List Char} {expr : MapperExpr}, IsSum cs expr →
    expr.sumsHaveTerms = true
  | _, _, .single hterm => hterm.sumsHaveTerms
  | _, _, .sum hfirst hothers _ => by
    apply sumsHaveTerms_concat_iff.2
    simp [hfirst.sumsHaveTerms, hothers.sumsHaveTerms]

theorem AreMoreTerms.sumsHaveTerms : ∀ {cs : List Char} {terms : List MapperExpr},
    AreMoreTerms cs terms → allSumsHaveTerms terms = true
  | _, _, .none => rfl
  | _, _, .more _ hterm hterms => by simp [hterm.sumsHaveTerms, hterms.sumsHaveTerms]

theorem IsTerm.sumsHaveTerms : ∀ {cs : List Char} {expr : MapperExpr}, IsTerm cs expr →
    expr.sumsHaveTerms = true
  | _, _, .capture _ _ | _, _, .startOf _ _ | _, _, .endOf _ _ | _, _, .text _ _ _
  | _, _, .start _ | _, _, .stop _ | _, _, .str _ _ _ => rfl
  | _, _, .list _ hitems _ => hitems.sumsHaveTerms
  | _, _, .node _ _ _ _ harguments _ => harguments.sumsHaveTerms
  | _, _, .parentheses _ hexpr _ => hexpr.sumsHaveTerms

theorem AreItems.sumsHaveTerms : ∀ {cs : List Char} {items : List MapperExpr},
    AreItems cs items → allSumsHaveTerms items = true
  | _, _, .none => rfl
  | _, _, .some hitems => hitems.sumsHaveTerms

theorem AreSeparated.sumsHaveTerms : ∀ {cs : List Char} {items : List MapperExpr},
    AreSeparated cs items → allSumsHaveTerms items = true
  | _, _, .last hitem => by simp [hitem.sumsHaveTerms]
  | _, _, .more hitem _ hitems => by simp [hitem.sumsHaveTerms, hitems.sumsHaveTerms]

end

/-- What is read has no sum without terms. -/
theorem sumsHaveTerms_of_parse {code : String} (h : parse code = .ok expr) :
    expr.sumsHaveTerms = true := by
  have hderives := parse_accounts code
  rw [h] at hderives
  obtain ⟨cs, blanks, hsum, -, -⟩ := hderives
  exact hsum.sumsHaveTerms

/-! ### Regrouping -/

/-- A sum inside a sum is replaced by its terms, or consecutive terms of a sum are put into a sum
of their own.  Either may happen at any depth. -/
inductive Regroups : MapperExpr → MapperExpr → Prop where
  | opened (before inner after : List MapperExpr) :
      Regroups (.concat (before ++ .concat inner :: after)) (.concat (before ++ (inner ++ after)))
  | grouped (before inner after : List MapperExpr) (hne : inner ≠ []) :
      Regroups (.concat (before ++ (inner ++ after))) (.concat (before ++ .concat inner :: after))
  | item {expr expr' : MapperExpr} (before after : List MapperExpr) (h : Regroups expr expr') :
      Regroups (.list (before ++ expr :: after)) (.list (before ++ expr' :: after))
  | argument {expr expr' : MapperExpr} (kind : String) (before after : List MapperExpr)
      (h : Regroups expr expr') :
      Regroups (.node kind (before ++ expr :: after)) (.node kind (before ++ expr' :: after))
  | term {expr expr' : MapperExpr} (before after : List MapperExpr) (h : Regroups expr expr') :
      Regroups (.concat (before ++ expr :: after)) (.concat (before ++ expr' :: after))

/-- No step makes a sum without terms. -/
theorem Regroups.sumsHaveTerms (h : Regroups expr expr') (hterms : expr.sumsHaveTerms = true) :
    expr'.sumsHaveTerms = true := by
  -- opening a sum needs that it had terms, and grouping makes one that has
  induction h with
  | opened before inner after =>
    obtain ⟨hbefore, hsum, hafter⟩ :=
      allSumsHaveTerms_middle_iff.1 (sumsHaveTerms_concat_middle_iff.1 hterms)
    obtain ⟨hne, hinner⟩ := sumsHaveTerms_concat_iff.1 hsum
    apply sumsHaveTerms_concat_iff.2
    simp [hne, hbefore, hinner, hafter]
  | grouped before inner after hne =>
    obtain ⟨-, hall⟩ := sumsHaveTerms_concat_iff.1 hterms
    simp only [allSumsHaveTerms_append, Bool.and_eq_true] at hall
    obtain ⟨hbefore, hinner, hafter⟩ := hall
    apply sumsHaveTerms_concat_middle_iff.2
    exact allSumsHaveTerms_middle_iff.2
      ⟨hbefore, sumsHaveTerms_concat_iff.2 ⟨hne, hinner⟩, hafter⟩
  | item before after h ih | argument kind before after h ih =>
    obtain ⟨hbefore, hpart, hafter⟩ := allSumsHaveTerms_middle_iff.1 hterms
    exact allSumsHaveTerms_middle_iff.2 ⟨hbefore, ih hpart, hafter⟩
  | term before after h ih =>
    obtain ⟨hbefore, hpart, hafter⟩ :=
      allSumsHaveTerms_middle_iff.1 (sumsHaveTerms_concat_middle_iff.1 hterms)
    apply sumsHaveTerms_concat_middle_iff.2
    exact allSumsHaveTerms_middle_iff.2 ⟨hbefore, ih hpart, hafter⟩

/-- No regrouping makes a sum without terms. -/
theorem sumsHaveTerms_of_regroups (h : Relation.ReflTransGen Regroups expr expr')
    (hterms : expr.sumsHaveTerms = true) : expr'.sumsHaveTerms = true := by
  induction h with
  | refl => exact hterms
  | tail _ hstep ih => exact hstep.sumsHaveTerms ih

/-! ### Values -/

theorem evaluateAll_eq_map (exprs : List MapperExpr) :
    evaluateAll captures input span exprs = exprs.map (evaluate captures input span) := by
  induction exprs with
  | nil => rfl
  | cons expr exprs ih => rw [evaluateAll, ih, List.map_cons]

/-- A sum inside a sum adds its terms. -/
theorem evaluate_opened (before : List MapperExpr) {inner : List MapperExpr} (hne : inner ≠ [])
    (after : List MapperExpr) :
    (concat (before ++ (inner ++ after))).evaluate captures input span =
      (concat (before ++ .concat inner :: after)).evaluate captures input span := by
  have hvalues : inner.map (evaluate captures input span) ≠ [] := by simpa using hne
  simp only [evaluate, evaluateAll_eq_map, List.map_append, List.map_cons]
  exact (Value.concatAll_append_concatAll _ hvalues _).symm

/-- An empty sum is not nothing: a list becomes text beside it. -/
example : (concat [.list [], .concat []]).evaluate [] [] {} = .str "" ∧
    (concat [.list []]).evaluate [] [] {} = .list [] := ⟨rfl, rfl⟩

/-- Several expressions have the same values when one is replaced by another of its value. -/
theorem evaluateAll_replace (before after : List MapperExpr)
    (h : expr'.evaluate captures input span = expr.evaluate captures input span) :
    evaluateAll captures input span (before ++ expr' :: after) =
      evaluateAll captures input span (before ++ expr :: after) := by
  simp only [evaluateAll_eq_map, List.map_append, List.map_cons, h]

/-- A step does not change the value. -/
theorem Regroups.evaluate_eq (h : Regroups expr expr') (hterms : expr.sumsHaveTerms = true) :
    expr'.evaluate captures input span = expr.evaluate captures input span := by
  induction h with
  | opened before inner after =>
    obtain ⟨-, hsum, -⟩ := allSumsHaveTerms_middle_iff.1 (sumsHaveTerms_concat_middle_iff.1 hterms)
    apply evaluate_opened before (sumsHaveTerms_concat_iff.1 hsum).1
  | grouped before inner after hne =>
    symm
    apply evaluate_opened before hne
  -- around the sum a value is put together from the values of the parts, of which one is replaced
  | item before after h ih =>
    obtain ⟨-, hpart, -⟩ := allSumsHaveTerms_middle_iff.1 hterms
    show Value.list _ = Value.list _
    rw [evaluateAll_replace before after (ih hpart)]
  | argument kind before after h ih =>
    obtain ⟨-, hpart, -⟩ := allSumsHaveTerms_middle_iff.1 hterms
    show Value.node kind span _ = Value.node kind span _
    rw [evaluateAll_replace before after (ih hpart)]
  | term before after h ih =>
    obtain ⟨-, hpart, -⟩ := allSumsHaveTerms_middle_iff.1 (sumsHaveTerms_concat_middle_iff.1 hterms)
    show Value.concatAll _ = Value.concatAll _
    rw [evaluateAll_replace before after (ih hpart)]

/-- A regrouping does not change the value. -/
theorem evaluate_of_regroups (h : Relation.ReflTransGen Regroups expr expr')
    (hterms : expr.sumsHaveTerms = true) :
    expr'.evaluate captures input span = expr.evaluate captures input span := by
  induction h with
  | refl => rfl
  | tail hsteps hstep ih =>
    rw [hstep.evaluate_eq (sumsHaveTerms_of_regroups hsteps hterms), ih]

/-- Sums of values are associative and add up texts.  So it makes no difference how the terms of
sums are grouped, at any depth of an expression whose sums have terms, and every expression that is
read from a text is such. -/
theorem grouping_irrelevant :
    (∀ left middle right : Value,
      (left.concat middle).concat right = left.concat (middle.concat right)) ∧
    (∀ left right : Value, (left.concat right).text = left.text ++ right.text) ∧
    (∀ code expr, parse code = .ok expr → expr.sumsHaveTerms = true) ∧
    ∀ expr expr' : MapperExpr, expr.sumsHaveTerms = true →
      Relation.ReflTransGen Regroups expr expr' →
      expr'.sumsHaveTerms = true ∧ ∀ captures input span,
        expr'.evaluate captures input span = expr.evaluate captures input span := by
  refine ⟨Value.concat_assoc, Value.text_concat, fun code expr h => sumsHaveTerms_of_parse h, ?_⟩
  intro expr expr' hterms hregroups
  exact ⟨sumsHaveTerms_of_regroups hregroups hterms,
    fun captures input span => evaluate_of_regroups hregroups hterms⟩

end MapperExpr

/-! ### Sums of sums in a node -/

namespace Parenthesized

open MapperExpr

/-- Two sums of two terms each. -/
def pairs : MapperExpr :=
  .node "pair" [.concat [.concat [.capture 0, .capture 1], .concat [.capture 2, .str "x"]]]

/-- The same four terms, with those in the middle in parentheses. -/
def middle : MapperExpr :=
  .node "pair" [.concat [.capture 0, .concat [.capture 1, .capture 2], .str "x"]]

/-- Three lists. -/
def captures : List Capture :=
  [⟨.list [.str "a"], {}⟩, ⟨.list [.str "b"], {}⟩, ⟨.list [.str "c"], {}⟩]

/-- Both sums are opened, and then two terms are put into parentheses. -/
theorem pairs_regroups : Relation.ReflTransGen Regroups pairs middle := by
  have hfirst : Regroups pairs
      (.node "pair" [.concat [.capture 0, .capture 1, .concat [.capture 2, .str "x"]]]) :=
    .argument "pair" [] [] (.opened [] [.capture 0, .capture 1] [.concat [.capture 2, .str "x"]])
  have hsecond : Regroups
      (.node "pair" [.concat [.capture 0, .capture 1, .concat [.capture 2, .str "x"]]])
      (.node "pair" [.concat [.capture 0, .capture 1, .capture 2, .str "x"]]) :=
    .argument "pair" [] [] (.opened [.capture 0, .capture 1] [.capture 2, .str "x"] [])
  have hthird : Regroups
      (.node "pair" [.concat [.capture 0, .capture 1, .capture 2, .str "x"]]) middle :=
    .argument "pair" [] []
      (.grouped [.capture 0] [.capture 1, .capture 2] [.str "x"] (List.cons_ne_nil _ _))
  exact ((Relation.ReflTransGen.single hfirst).tail hsecond).tail hthird

/-- Both texts are read, and what they stand for has the same value: the lists are joined in
another order, and what is no list comes in sooner or later. -/
theorem middle_evaluates_alike :
    parse "pair(($0 + $1) + ($2 + 'x'))" = .ok pairs ∧
      parse "pair($0 + ($1 + $2) + 'x')" = .ok middle ∧
      middle.evaluate captures [] {} = pairs.evaluate captures [] {} ∧
      pairs.evaluate captures [] {} = .node "pair" {} [.str "abcx"] := by
  obtain ⟨-, -, hread, hregrouped⟩ := grouping_irrelevant
  have hpairs : parse "pair(($0 + $1) + ($2 + 'x'))" = .ok pairs :=
    MapperExpr.eq_ok_of_same (by decide +kernel)
  have hmiddle : parse "pair($0 + ($1 + $2) + 'x')" = .ok middle :=
    MapperExpr.eq_ok_of_same (by decide +kernel)
  obtain ⟨-, hvalue⟩ := hregrouped pairs middle (hread _ _ hpairs) pairs_regroups
  exact ⟨hpairs, hmiddle, hvalue captures [] {}, rfl⟩

end Parenthesized

end Peg
