/-
Peg/Proofs/Grammar/ReadItem.lean

How written patterns are read, whatever they are made of.

The single kinds of patterns are put together by recursion on the pattern.  A
member of a sequence or of a group is a pattern with an optional modifier, and
it reads the blanks after it; so what a member is read up to starts with
neither a blank nor a comment, and members that are joined by blanks are read
one after the other.
-/
import Peg.Proofs.Grammar.ReadPattern

namespace Peg

open Text Regex

/-! ### Members as they are written -/

/-- The tree of a member of a group. -/
def GroupItem.tree (item : GroupItem) : Value :=
  .node "groupItem" {} [.ofText (if item.important then some "!" else none), item.repTree]

theorem treesOfItems_eq_map (items : List GroupItem) :
    treesOfItems items = items.map GroupItem.tree := by
  induction items with
  | nil => rfl
  | cons item items ih => rw [treesOfItems, ih, List.map_cons, GroupItem.tree]

theorem formatGroupItems_eq_map (items : List GroupItem) :
    formatGroupItems items = items.map GroupItem.format := by
  induction items with
  | nil => rfl
  | cons item items ih => rw [formatGroupItems, ih, List.map_cons]

/-- What is written after a pattern. -/
def Repetition.suffix (repetition : Option Repetition) : List Char :=
  ((Repetition.text repetition).getD "").toList

/-- The mark of an important member. -/
def markOf (important : Bool) : Option String :=
  if important then some "!" else none

theorem GroupItem.toList_format (important : Bool) (pattern : Pattern)
    (repetition : Option Repetition) (span : Span) :
    (GroupItem.mk important pattern repetition span).format.toList =
      ((markOf important).getD "").toList ++
        (pattern.format.toList ++ Repetition.suffix repetition) := by
  have hmark : (markOf important).getD "" = if important then "!" else "" := by
    cases important <;> rfl
  rw [GroupItem.format, String.toList_append, String.toList_append, hmark, List.append_assoc]
  rfl

namespace Meta

variable {word blanks rest text : List Char} {value : Value}

/-! ### First characters -/

/-- Every pattern that can be written starts like one. -/
theorem exists_patternStart {p : Pattern} (h : p.Printable) :
    ∃ c cs, p.format.toList = c :: cs ∧ PatternStart c := by
  have hopening : ∀ c ∈ openings.map Prod.snd, PatternStart c := by
    intro c hc
    obtain ⟨opening, hopening, rfl⟩ := List.mem_map.1 hc
    exact .inr ⟨opening, hopening, rfl⟩
  -- names begin with a letter, and every other pattern with an opening of its own
  cases p with
  | literal string span => exact ⟨'\'', _, String.toList_ofList, hopening _ (by decide)⟩
  | regex source flags span => exact ⟨'/', _, String.toList_ofList, hopening _ (by decide)⟩
  | any span => exact ⟨'.', [], by rw [Pattern.format]; rfl, hopening _ (by decide)⟩
  | name name span =>
    obtain ⟨c, cs, hname, hc⟩ := nameStart_of_isIdentifier h []
    rw [List.append_nil] at hname
    exact ⟨c, cs, hname, .inl hc⟩
  | «variable» index span =>
    exact ⟨'$', _, Token.toList_encodeVariable index, hopening _ (by decide)⟩
  | template function body span =>
    obtain ⟨c, cs, htext, hc⟩ := nameStart_of_template h.1 (body.toList ++ ['`'])
    refine ⟨c, cs, ?_, .inl hc⟩
    rw [← htext]
    simp [Pattern.format, String.toList_append]
  | apply function pattern span =>
    obtain ⟨c, cs, htext, hc⟩ :=
      nameStart_of_isIdentifier h.1 ('(' :: (pattern.format.toList ++ [')']))
    refine ⟨c, cs, ?_, .inl hc⟩
    rw [← htext]
    simp [Pattern.format, String.toList_append]
  | group items span =>
    refine ⟨'(', (" ".intercalate (formatGroupItems items)).toList ++ [')'], ?_,
      hopening _ (by decide)⟩
    simp [Pattern.format, String.toList_append]

theorem starts_pattern {p : Pattern} (h : p.Printable) : Starts p.format.toList := by
  obtain ⟨c, cs, hp, hc⟩ := exists_patternStart h
  obtain ⟨hblank, hdash, -⟩ := hc.starts
  exact ⟨c, cs, hp, hblank, hdash⟩

/-- No pattern starts with the mark of a member. -/
theorem avoids_mark {p : Pattern} (h : p.Printable) (rest : List Char) :
    (CharSet.single '!').Avoids (p.format.toList ++ rest) := by
  obtain ⟨c, cs, hp, hc⟩ := exists_patternStart h
  obtain ⟨-, -, hmark⟩ := hc.starts
  rw [hp, List.cons_append, CharSet.avoids_cons, CharSet.contains_single, beq_eq_false_iff_ne]
  exact hmark

/-! ### Members -/

/-- The text does not go on with a member before it, modifier included. -/
structure EndsItem (text : List Char) : Prop extends Apart text where
  modifier : modifierSet.Avoids text

theorem endsItem_cons {c : Char} {cs : List Char} (hname : idSet.contains c = false)
    (hquote : c ≠ '`') (hparen : c ≠ '(') (hmodifier : modifierSet.contains c = false) :
    EndsItem (c :: cs) :=
  ⟨apart_cons hname hquote hparen, CharSet.avoids_cons.2 hmodifier⟩

theorem reads_modifier_suffix (repetition : Option Repetition) (h : modifierSet.Avoids rest) :
    program.Reads (optional (call .modifier)) (Repetition.suffix repetition) rest
      (.ofText (Repetition.text repetition)) := by
  rcases repetition with - | repetition
  · exact Program.reads_optional_absent
      (fails_only .modifier rfl (.here (refuses_token (refuses_modifier h))))
  · have hsymbol : modifierSet.contains repetition.symbol = true := by cases repetition <;> rfl
    have hsuffix : Repetition.suffix (some repetition) = [repetition.symbol] := by
      cases repetition <;> rfl
    have htoken := reads_token (reads_modifier hsymbol rest)
    rw [← hsuffix, Repetition.suffix, String.ofList_toList] at htoken
    exact Program.reads_optional (reads_only .modifier rfl (readsAll_single htoken) rfl rfl)

theorem apart_suffix (repetition : Option Repetition) (h : Apart rest) :
    Apart (Repetition.suffix repetition ++ rest) := by
  rcases repetition with - | - | - | -
  · exact h
  · exact apart_cons (by decide) (by decide) (by decide)
  · exact apart_cons (by decide) (by decide) (by decide)
  · exact apart_cons (by decide) (by decide) (by decide)

/-- A pattern, its modifier and the blanks after it. -/
theorem reads_rep (repetition : Option Repetition)
    (h : ∀ {rest}, Apart rest → program.Reads (call .simple) word rest value)
    (hblanks : (CharSet.named .blank).Covers blanks) (hends : EndsItem (blanks ++ rest))
    (hrest : Solid rest) :
    program.Reads (call .rep) (word ++ (Repetition.suffix repetition ++ blanks)) rest
      (.node "rep" {} [value, .ofText (Repetition.text repetition)]) := by
  have hws := readsAll_single (reads_ws hblanks hrest)
  have hmodifier := Program.ReadsAll.cons
    (reads_modifier_suffix repetition hends.modifier) hws
  have happart : Apart (Repetition.suffix repetition ++ blanks ++ rest) := by
    rw [List.append_assoc]
    exact apart_suffix repetition hends.toApart
  exact reads_only .rep rfl (.cons (h happart) hmodifier) rfl rfl

theorem refuses_rep {c : Char} (h : ¬ PatternStart c) (cs : List Char) :
    program.Refuses (call .rep) (c :: cs) :=
  fails_only .rep rfl (.here (refuses_simple h cs))

/-- A mark that may be absent. -/
theorem reads_mark (important : Bool) (h : (CharSet.single '!').Avoids text) :
    program.Reads (optional (.literal "!")) ((markOf important).getD "").toList text
      (.ofText (markOf important)) := by
  cases important with
  | true => exact Program.reads_optional (reads_char "!" '!' rfl text)
  | false => exact Program.reads_optional_absent (refuses_char rfl h)

/-- No member starts where a group is closed. -/
theorem refuses_groupItem (rest : List Char) :
    program.Refuses (call .groupItem) (')' :: rest) := by
  have hmark : (CharSet.single '!').Avoids (')' :: rest) := CharSet.avoids_cons.2 (by decide)
  have hsolid : Solid (')' :: rest) := solid_cons (by decide) (by decide)
  have hrep : program.FailsAll [call .ws, call .rep] ([] ++ []) (')' :: rest) :=
    .after (reads_ws_nil hsolid) (.here (refuses_rep (not_patternStart (by decide)) rest))
  have hitems : program.FailsAll [optional (.literal "!"), call .ws, call .rep] ([] ++ [])
      (')' :: rest) :=
    .after (Program.reads_optional_absent (refuses_char rfl hmark)) hrep
  exact fails_only .groupItem rfl hitems

/-! ### Joined members -/

section Joined

variable {α : Type} {m : Matcher} {format : α → String} {tree : α → Value}

theorem starts_joined {x : α} {xs : List α} (h : Starts (format x).toList) :
    Starts (" ".intercalate ((x :: xs).map format)).toList := by
  cases xs with
  | nil => exact h
  | cons next xs =>
    rw [List.map_cons, List.map_cons, String.intercalate_cons_cons, String.toList_append,
      String.toList_append, List.append_assoc]
    exact h.append _

/-- Members that are joined by blanks.  Each is read along with the blanks after it. -/
theorem readsMany_joined {x : α} {xs : List α}
    (h : ∀ x' ∈ x :: xs, ∀ {blanks rest}, (CharSet.named .blank).Covers blanks →
      EndsItem (blanks ++ rest) → Solid rest →
      program.Reads m ((format x').toList ++ blanks) rest (tree x'))
    (hstarts : ∀ x' ∈ x :: xs, Starts (format x').toList)
    (hblanks : (CharSet.named .blank).Covers blanks) (hends : EndsItem (blanks ++ rest))
    (hrest : Solid rest) (hrefuses : program.Refuses m rest) :
    program.ReadsMany m ((" ".intercalate ((x :: xs).map format)).toList ++ blanks) rest
      ((x :: xs).map tree) := by
  induction xs generalizing x with
  | nil =>
    have hx := h x (List.mem_singleton_self x) hblanks hends hrest
    have hne := ((hstarts x (List.mem_singleton_self x)).append blanks).ne_nil
    have hmany := Program.ReadsMany.cons (show program.Reads m _ ([] ++ rest) _ from hx) hne
      (.nil hrefuses)
    rw [List.append_nil] at hmany
    exact hmany
  | cons next xs ih =>
    obtain ⟨hx, hxs⟩ := List.forall_mem_cons.1 h
    obtain ⟨hstart, hstarts⟩ := List.forall_mem_cons.1 hstarts
    have hothers := ih hxs hstarts
    have hnext : Starts (" ".intercalate ((next :: xs).map format)).toList :=
      starts_joined (hstarts next (List.mem_cons_self ..))
    have hblank : (CharSet.named .blank).Covers " ".toList := by
      intro c hc
      rw [List.mem_singleton.1 hc]
      rfl
    -- the space that separates two items belongs to the first one
    have hsolid := ((hnext.append blanks).append rest).solid
    have hitem := hx hblank (endsItem_cons (by decide) (by decide) (by decide) (by decide)) hsolid
    have hmany := Program.ReadsMany.cons hitem (hstart.append " ".toList).ne_nil hothers
    rw [List.map_cons, List.map_cons, String.intercalate_cons_cons, ← List.map_cons,
      String.toList_append, String.toList_append, List.append_assoc]
    exact hmany

end Joined

/-! ### All patterns -/

theorem starts_groupItem {item : GroupItem} (h : item.Printable) : Starts item.format.toList := by
  obtain ⟨important, p, repetition, span⟩ := item
  have hp : Starts p.format.toList := starts_pattern h
  rw [GroupItem.toList_format]
  cases important with
  | true => exact starts_cons (by decide) (by decide)
  | false => exact hp.append _

theorem reads_groupItem : ∀ {item : GroupItem}, item.Printable →
    (∀ {rest}, Apart rest → program.Reads (call .simple) item.item.pattern.format.toList rest
      item.item.pattern.tree) →
    ∀ {blanks rest}, (CharSet.named .blank).Covers blanks → EndsItem (blanks ++ rest) →
      Solid rest → program.Reads (call .groupItem) (item.format.toList ++ blanks) rest item.tree
  | .mk important p repetition span, hprintable, h, blanks, rest, hblanks, hends, hrest => by
    have hrep : program.Reads (call .rep)
        (p.format.toList ++ (Repetition.suffix repetition ++ blanks)) rest
        (GroupItem.mk important p repetition span).repTree :=
      reads_rep repetition h hblanks hends hrest
    have hsolid := ((starts_pattern hprintable).append
      (Repetition.suffix repetition ++ blanks ++ rest)).solid
    have hws := Program.ReadsAll.cons (reads_ws_nil (by simpa using hsolid)) (readsAll_single hrep)
    have hmark := reads_mark important
      (avoids_mark hprintable (Repetition.suffix repetition ++ blanks ++ rest))
    have hitems : program.ReadsAll [optional (.literal "!"), call .ws, call .rep] _ rest _ :=
      .cons (by simpa using hmark) hws
    refine (reads_only .groupItem rfl hitems rfl rfl).of_eq ?_
    rw [GroupItem.toList_format, List.nil_append, List.append_assoc, List.append_assoc]

/-- A group, given how the patterns of its members are read. -/
theorem reads_group_pattern {items : List GroupItem} (hne : items ≠ [])
    (hprintable : AllPrintable items)
    (h : ∀ item ∈ items, ∀ {rest}, Apart rest → program.Reads (call .simple)
      item.item.pattern.format.toList rest item.item.pattern.tree) (rest : List Char) :
    program.Reads (call .simple)
      ('(' :: ((" ".intercalate (formatGroupItems items)).toList ++ [')'])) rest
      (.node "group" {} [.list (treesOfItems items)]) := by
  have hclose : EndsItem (')' :: rest) :=
    endsItem_cons (by decide) (by decide) (by decide) (by decide)
  have hsolid : Solid (')' :: rest) := solid_cons (by decide) (by decide)
  have hstarts : ∀ item ∈ items, Starts item.format.toList := fun item hitem =>
    starts_groupItem (allPrintable_iff.1 hprintable item hitem)
  have hnil : (CharSet.named .blank).Covers [] := nofun
  rw [formatGroupItems_eq_map, treesOfItems_eq_map]
  rcases items with - | ⟨item, items⟩
  · exact absurd rfl hne
  · have hmany := readsMany_joined (fun item hitem => reads_groupItem
      (allPrintable_iff.1 hprintable item hitem) (h item hitem)) hstarts hnil hclose hsolid
      (refuses_groupItem rest)
    rw [List.append_nil] at hmany
    have hmembers := hmany.oneOrMore (List.cons_ne_nil _ _)
    have hend := Program.ReadsAll.cons hmembers (readsAll_single (reads_char ")" ')' rfl rest))
    have hstart : Starts (" ".intercalate ((item :: items).map GroupItem.format)).toList :=
      starts_joined (hstarts item (List.mem_cons_self ..))
    have hopen := ((hstart.append [')']).append rest).solid
    have hitems : program.ReadsAll _ ('(' :: _) rest _ :=
      .cons (reads_char "(" '(' rfl _) (.cons (reads_ws_nil hopen) hend)
    have hgroup := reads_only .group rfl hitems rfl rfl
    exact reads_opening [(.literal, '\''), (.regex, '/'), (.any, '.'), (.variable, '$')] rfl
      (by decide) hgroup

mutual

theorem reads_pattern : ∀ {p : Pattern}, p.Printable → ∀ {rest}, Apart rest →
    program.Reads (call .simple) p.format.toList rest p.tree
  | .literal string _, _, rest, _ => reads_literal_pattern string rest
  | .regex source flags _, h, _, hrest => reads_regex_pattern h.1 h.2 hrest
  | .any _, _, rest, _ => by
    rw [Pattern.format]
    exact reads_any_pattern rest
  | .name name _, h, _, hrest => reads_name_pattern h hrest
  | .variable index _, _, _, hrest => reads_variable_pattern index hrest
  | .template function body _, h, rest, _ => by
    have htemplate := reads_template_pattern h.1 h.2 rest
    refine htemplate.of_eq ?_
    simp [Pattern.format, String.toList_append]
  | .apply function p _, h, rest, _ => by
    have hclose : Apart (')' :: rest) := apart_cons (by decide) (by decide) (by decide)
    have hinner := reads_pattern h.2 hclose
    have happly := reads_apply_pattern h.1 ((starts_pattern h.2).append _).solid hinner
    refine happly.of_eq ?_
    simp [Pattern.format, String.toList_append]
  | .group items _, h, rest, _ => by
    have hgroup := reads_group_pattern h.1 h.2 (reads_members h.2) rest
    refine hgroup.of_eq ?_
    simp [Pattern.format, String.toList_append]

theorem reads_members : ∀ {items : List GroupItem}, AllPrintable items → ∀ item ∈ items,
    ∀ {rest}, Apart rest → program.Reads (call .simple) item.item.pattern.format.toList rest
      item.item.pattern.tree
  | [], _, _, hitem, _, _ => absurd hitem List.not_mem_nil
  | .mk _ _ _ _ :: items, h, item, hitem, _, hrest => by
    rcases List.mem_cons.1 hitem with rfl | hitem
    · exact reads_pattern h.1 hrest
    · exact reads_members h.2 item hitem hrest

end

/-! ### Members of alternatives -/

theorem toList_format_item (item : Item) :
    item.format.toList = item.pattern.format.toList ++ Repetition.suffix item.repetition :=
  GroupItem.toList_format false item.pattern item.repetition item.span

theorem starts_item {item : Item} (h : item.Printable) : Starts item.format.toList := by
  rw [toList_format_item]
  exact (starts_pattern h).append _

theorem reads_item {item : Item} (h : item.Printable)
    (hblanks : (CharSet.named .blank).Covers blanks) (hends : EndsItem (blanks ++ rest))
    (hrest : Solid rest) :
    program.Reads (call .rep) (item.format.toList ++ blanks) rest item.tree := by
  have hrep := reads_rep item.repetition (reads_pattern h) hblanks hends hrest
  rw [← List.append_assoc, ← toList_format_item] at hrep
  exact hrep

end Meta

end Peg
