/-
Peg/Proofs/Grammar/ReadRule.lean

How written rules are read.

An alternative reads the blanks after it, which are the end of its line unless
it is the last one and has no mapper.  So a rule is a head, its first
alternative and a list of further ones, each with its bar before it and its
blanks after it (`alternativeTails`); this is the form in which a rule is read
from left to right.  A mapper is read up to a line that starts with a bar or a
semicolon, and this is why a rule whose last alternative has a mapper ends on
a line of its own.
-/
import Peg.Proofs.Grammar.ReadItem

namespace Peg.Meta

open Text Regex

variable {word blanks rest text : List Char} {value : Value}

/-! ### Blanks -/

/-- The end of a line and the indentation of the next. -/
def newLine : List Char :=
  '\n' :: List.replicate 4 ' '

theorem covers_space : (CharSet.named .blank).Covers [' '] := by
  intro c hc
  rw [List.mem_singleton.1 hc]
  rfl

theorem covers_newLine : (CharSet.named .blank).Covers newLine :=
  CharSet.covers_cons.2 ⟨rfl, CharSet.covers_replicate rfl 4⟩

/-- The rule goes on with an alternative or ends. -/
def GoesOn (text : List Char) : Prop :=
  ∃ c cs, text = c :: cs ∧ (c = '|' ∨ c = ';')

theorem goesOn_bar (cs : List Char) : GoesOn ('|' :: cs) :=
  ⟨'|', cs, rfl, .inl rfl⟩

theorem goesOn_semicolon (cs : List Char) : GoesOn (';' :: cs) :=
  ⟨';', cs, rfl, .inr rfl⟩

/-- What a rule goes on with is neither a blank nor a comment. -/
theorem GoesOn.solid (h : GoesOn text) : Solid text := by
  obtain ⟨c, cs, rfl, rfl | rfl⟩ := h
  · exact solid_cons (by decide) (by decide)
  · exact solid_cons (by decide) (by decide)

/-- On a new line it ends a mapper. -/
theorem GoesOn.endsMapper (h : GoesOn rest) : EndsMapper (newLine ++ rest) := by
  have hindent : indentSet.Covers (List.replicate 4 ' ') := CharSet.covers_replicate (by decide) 4
  obtain ⟨c, cs, rfl, rfl | rfl⟩ := h
  · exact ⟨_, '|', cs, rfl, hindent, by decide, by decide⟩
  · exact ⟨_, ';', cs, rfl, hindent, by decide, by decide⟩

/-- It is no mapper. -/
theorem GoesOn.avoids_percent (h : GoesOn text) : (CharSet.single '%').Avoids text := by
  obtain ⟨c, cs, rfl, rfl | rfl⟩ := h
  · exact CharSet.avoids_cons.2 (by decide)
  · exact CharSet.avoids_cons.2 (by decide)

/-- It is no item of an alternative either. -/
theorem GoesOn.refuses_rep (h : GoesOn text) : program.Refuses (call .rep) text := by
  obtain ⟨c, cs, rfl, rfl | rfl⟩ := h
  · exact Meta.refuses_rep (not_patternStart (by decide)) cs
  · exact Meta.refuses_rep (not_patternStart (by decide)) cs

/-! ### Alternatives -/

/-- A mapper begins with two percent signs. -/
theorem refuses_mapper (h : (CharSet.single '%').Avoids text) :
    program.Refuses (call .mapper) text := by
  refine fails_only .mapper rfl (.here (Program.refuses_literal ?_))
  rintro ⟨cs, rfl⟩
  exact absurd (h '%' rfl) (by decide)

/-- A mapper is read up to the line that ends it, and comes back as it was printed. -/
theorem reads_mapperCode {code : MapperCode} (h : IsMapperText code.code)
    (hblanks : (CharSet.named .blank).Covers blanks) (hends : EndsMapper (blanks ++ rest))
    (hrest : Solid rest) :
    program.Reads (call .mapper) ("%%".toList ++ (Token.mapperWord code.code ++ blanks)) rest
      code.tree := by
  have htext : program.Reads (call .mapperText) (Token.mapperWord code.code) (blanks ++ rest)
      (.str (String.ofList (Token.mapperWord code.code))) :=
    reads_only .mapperText rfl
      (readsAll_single (reads_token (Token.reads_mapperWord h hends))) rfl rfl
  have hsign := Program.reads_literal program "%%" (Token.mapperWord code.code ++ blanks ++ rest)
  exact reads_only .mapper rfl
    (.cons hsign (.cons htext (readsAll_single (reads_ws hblanks hrest)))) rfl rfl

/-- The items of an alternative. -/
theorem reads_items {alternative : Alternative} (h : alternative.Printable)
    (hblanks : (CharSet.named .blank).Covers blanks) (hends : EndsItem (blanks ++ rest))
    (hrest : Solid rest) (hrefuses : program.Refuses (call .rep) rest) :
    program.Reads (.repeated (call .rep) .oneOrMore)
      ((" ".intercalate (alternative.items.map Item.format)).toList ++ blanks) rest
      (.list (alternative.items.map Item.tree)) := by
  obtain ⟨hnonempty, hitems, -⟩ := h
  rcases hcases : alternative.items with - | ⟨item, items⟩
  · exact absurd hcases hnonempty
  · rw [hcases] at hitems
    have hmany := readsMany_joined (fun item hitem => reads_item (hitems item hitem))
      (fun item hitem => starts_item (hitems item hitem)) hblanks hends hrest hrefuses
    exact hmany.oneOrMore (List.cons_ne_nil _ _)

/-- An alternative begins like its first item. -/
theorem starts_alternative {alternative : Alternative} (h : alternative.Printable) :
    Starts alternative.format.toList := by
  obtain ⟨hnonempty, hitems, -⟩ := h
  obtain ⟨items, mapper, span⟩ := alternative
  rcases items with - | ⟨item, items⟩
  · exact absurd rfl hnonempty
  · have hstart : Starts (" ".intercalate ((item :: items).map Item.format)).toList :=
      starts_joined (starts_item (hitems item (List.mem_cons_self ..)))
    cases mapper with
    | none => exact hstart
    | some mapper =>
      rw [Alternative.format, String.toList_append, String.toList_append, List.append_assoc]
      exact hstart.append _

/-- What is written between an alternative and the place where the rule goes on. -/
def SeparatesFrom (alternative : Alternative) (blanks : List Char) : Prop :=
  blanks = newLine ∨ alternative.mapper = none ∧ blanks = [' ']

/-- What separates alternatives are blanks. -/
theorem SeparatesFrom.covers {alternative : Alternative} (h : SeparatesFrom alternative blanks) :
    (CharSet.named .blank).Covers blanks := by
  rcases h with rfl | ⟨-, rfl⟩
  · exact covers_newLine
  · exact covers_space

/-- The last item of an alternative ends at these blanks. -/
theorem SeparatesFrom.endsItem {alternative : Alternative} (h : SeparatesFrom alternative blanks)
    (rest : List Char) : EndsItem (blanks ++ rest) := by
  rcases h with rfl | ⟨-, rfl⟩
  · exact endsItem_cons (by decide) (by decide) (by decide) (by decide)
  · exact endsItem_cons (by decide) (by decide) (by decide) (by decide)

/-- A printed alternative is read back, up to what a rule goes on with. -/
theorem reads_alternative {alternative : Alternative} (h : alternative.Printable)
    (hblanks : SeparatesFrom alternative blanks) (hrest : GoesOn rest) :
    program.Reads (call .alternative) (alternative.format.toList ++ blanks) rest
      alternative.tree := by
  rcases hmapper : alternative.mapper with - | code
  · -- without a mapper the items go up to the end
    have hitems := reads_items h hblanks.covers (hblanks.endsItem rest) hrest.solid
      hrest.refuses_rep
    have habsent := Program.reads_optional_absent (refuses_mapper hrest.avoids_percent)
    have hread := Program.ReadsAll.cons hitems (readsAll_single habsent)
    have halternative := reads_only .alternative rfl hread rfl rfl
    rw [Alternative.format, hmapper]
    rw [Alternative.tree, hmapper]
    exact halternative.of_eq (List.append_nil _)
  · -- the line ends with the mapper
    have hnewLine : blanks = newLine := by
      rcases hblanks with hnewLine | ⟨hnone, -⟩
      · exact hnewLine
      · rw [hmapper] at hnone
        cases hnone
    subst hnewLine
    have hcode := reads_mapperCode (h.mapper code hmapper) covers_newLine hrest.endsMapper
      hrest.solid
    -- the items end at the percent signs, which begin no pattern
    have hpercent : program.Refuses (call .rep)
        ("%%".toList ++ (Token.mapperWord code.code ++ newLine) ++ rest) :=
      refuses_rep (not_patternStart (by decide)) _
    have hitems := reads_items h covers_space
      (endsItem_cons (by decide) (by decide) (by decide) (by decide))
      (solid_cons (by decide) (by decide)) hpercent
    have halternative := reads_only .alternative rfl
      (.cons hitems (readsAll_single (Program.reads_optional hcode))) rfl rfl
    rw [Alternative.format, hmapper]
    rw [Alternative.tree, hmapper]
    refine halternative.of_eq ?_
    simp [Token.mapperWord, String.toList_append]

/-! ### Further alternatives -/

/-- What is written after an alternative before the bar or the semicolon. -/
def blanksAfter (alternative : Alternative) : List Alternative → List Char
  | [] => if alternative.mapper.isSome then newLine else [' ']
  | _ :: _ => newLine

/-- The printer puts a new line after a mapper and a blank after anything else. -/
theorem separatesFrom_blanksAfter (alternative : Alternative) (others : List Alternative) :
    SeparatesFrom alternative (blanksAfter alternative others) := by
  cases others with
  | cons next others => exact .inl rfl
  | nil =>
    rcases hmapper : alternative.mapper with - | code
    · exact .inr ⟨hmapper, by rw [blanksAfter, hmapper]; rfl⟩
    · exact .inl (by rw [blanksAfter, hmapper]; rfl)

/-- Alternatives after the first. -/
def alternativeTails : List Alternative → List Char
  | [] => []
  | alternative :: others =>
    '|' :: ' ' :: (alternative.format.toList ++ blanksAfter alternative others) ++
      alternativeTails others

/-- After an alternative there is a bar or the semicolon. -/
theorem goesOn_tails (alternatives : List Alternative) (rest : List Char) :
    GoesOn (alternativeTails alternatives ++ ';' :: rest) := by
  cases alternatives with
  | nil => exact goesOn_semicolon rest
  | cons alternative others => exact goesOn_bar _

/-- The further alternatives are read one by one. -/
theorem readsMany_altTail {alternatives : List Alternative}
    (h : ∀ alternative ∈ alternatives, alternative.Printable) (rest : List Char) :
    program.ReadsMany (call .altTail) (alternativeTails alternatives) (';' :: rest)
      (alternatives.map Alternative.tree) := by
  induction alternatives with
  | nil =>
    have hbar : (CharSet.single '|').Avoids (';' :: rest) := CharSet.avoids_cons.2 (by decide)
    exact .nil (fails_only .altTail rfl (.here (refuses_char rfl hbar)))
  | cons alternative others ih =>
    obtain ⟨halternative, hothers⟩ := List.forall_mem_cons.1 h
    have hgoesOn := goesOn_tails others rest
    have hread := reads_alternative halternative (separatesFrom_blanksAfter alternative others)
      hgoesOn
    have hsolid := (((starts_alternative halternative).append
      (blanksAfter alternative others)).append (alternativeTails others ++ ';' :: rest)).solid
    have htail : program.ReadsAll [.literal "|", call .ws, call .alternative]
        (['|'] ++ ([' '] ++ (alternative.format.toList ++ blanksAfter alternative others)))
        (alternativeTails others ++ ';' :: rest) _ :=
      .cons (reads_char "|" '|' rfl _)
        (.cons (reads_ws covers_space hsolid) (readsAll_single hread))
    have hrule := reads_only .altTail rfl htail rfl rfl
    exact .cons hrule (List.cons_ne_nil _ _) (ih hothers)

/-- So all alternatives of a rule are read. -/
theorem reads_alternatives {alternative : Alternative} {others : List Alternative}
    (h : ∀ alternative' ∈ alternative :: others, alternative'.Printable) (rest : List Char) :
    program.Reads (call .alternatives)
      (alternative.format.toList ++ blanksAfter alternative others ++ alternativeTails others)
      (';' :: rest) (.list ((alternative :: others).map Alternative.tree)) := by
  obtain ⟨halternative, hothers⟩ := List.forall_mem_cons.1 h
  have hfirst := reads_alternative halternative (separatesFrom_blanksAfter alternative others)
    (goesOn_tails others rest)
  have hmany := Program.reads_any (readsMany_altTail hothers rest)
  exact reads_only .alternatives rfl (.cons hfirst (readsAll_single hmany)) rfl rfl

/-- The body of a rule in the form in which it is read. -/
theorem toList_body (alternative : Alternative) (others : List Alternative) :
    ("\n    | ".intercalate ((alternative :: others).map Alternative.format) ++
      if ((alternative :: others).getLast?.bind (·.mapper)).isSome then "\n    ;"
      else " ;").toList =
      alternative.format.toList ++ blanksAfter alternative others ++ alternativeTails others ++
        [';'] := by
  induction others generalizing alternative with
  | nil =>
    rw [String.toList_append, List.map_cons, List.map_nil, String.intercalate_singleton,
      List.getLast?_singleton, Option.bind_some, blanksAfter, alternativeTails]
    rcases alternative.mapper with - | code
    · simp
    · simp [newLine]
  | cons next others ih =>
    have hothers := ih next
    rw [String.toList_append, List.append_assoc] at hothers
    rw [String.toList_append, List.map_cons, List.map_cons, String.intercalate_cons_cons,
      ← List.map_cons, String.toList_append, String.toList_append, List.getLast?_cons_cons,
      List.append_assoc, hothers, blanksAfter, alternativeTails]
    simp [newLine]

/-! ### Heads -/

/-- What is written between the name of a rule and the equals sign. -/
def typeWord : Option String → List Char
  | some type => ':' :: ' ' :: (type.toList ++ [' '])
  | none => [' ']

/-- A type begins with a character that is not skipped. -/
theorem solid_type {type : List Char} (h : IsTypeText type) (rest : List Char) :
    Solid (type ++ ' ' :: rest) := by
  obtain ⟨hnonempty, htrimmed, -, hdashes⟩ := h
  rcases type with - | ⟨c, cs⟩
  · exact absurd rfl hnonempty
  · refine ⟨CharSet.avoids_cons.2 ((isTrimmed_iff.2 htrimmed).1 c rfl), fun hbegins => ?_⟩
    rw [List.cons_append, List.cons_prefix_cons] at hbegins
    obtain ⟨rfl, hbegins⟩ := hbegins
    cases cs with
    | nil => exact absurd (List.cons_prefix_cons.1 hbegins).1 (by decide)
    | cons d cs =>
      rw [List.cons_append, List.cons_prefix_cons] at hbegins
      obtain ⟨rfl, -⟩ := hbegins
      exact hdashes ⟨cs, rfl⟩

/-- A type and the blank after it hold no character that would end the type. -/
theorem covers_type {type : List Char} (h : IsTypeText type) : typeSet.Covers (type ++ [' ']) := by
  intro c hc
  rw [typeSet, CharSet.contains_compl, CharSet.contains_union, CharSet.contains_single,
    CharSet.contains_single, Bool.not_eq_true', Bool.or_eq_false_iff, beq_eq_false_iff_ne,
    beq_eq_false_iff_ne]
  rcases List.mem_append.1 hc with hc | hc
  · exact h.ends c hc
  · rw [List.mem_singleton.1 hc]
    decide

/-- The declared type, or the blank in its place. -/
theorem readsAll_type {type : Option String} (h : ∀ type' ∈ type, IsTypeText type'.toList)
    {items : List Matcher} {words : List Char} {values : List Value}
    (hitems : program.ReadsAll items words rest values)
    (hequals : (words ++ rest).head? = some '=') :
    ∃ blank, program.ReadsAll (call .ws :: optional (call .typeAnn) :: items)
      (typeWord type ++ words) rest (blank :: .ofText (type.map (· ++ " ")) :: values) := by
  obtain ⟨after, hafter⟩ := List.head?_eq_some_iff.1 hequals
  -- without a type there is only white space before the equals sign
  cases type with
  | none =>
    have hsolid : Solid (words ++ rest) := by
      rw [hafter]
      exact solid_cons (by decide) (by decide)
    have hrefuses : program.Refuses (call .typeAnn) (words ++ rest) := by
      rw [hafter]
      exact fails_only .typeAnn rfl (.here (refuses_char rfl (CharSet.avoids_cons.2 (by decide))))
    have hws := reads_ws covers_space hsolid
    exact ⟨_, .cons hws (.cons (Program.reads_optional_absent hrefuses) hitems)⟩
  | some type =>
    have htext := h type rfl
    have hends : typeSet.Avoids (words ++ rest) := by
      rw [hafter]
      exact CharSet.avoids_cons.2 (by decide)
    have htoken := reads_token
      (reads_type (covers_type htext) (List.append_ne_nil_of_right_ne_nil _ (by decide)) hends)
    have hsolid : Solid (type.toList ++ [' '] ++ (words ++ rest)) := by
      rw [List.append_assoc]
      exact solid_type htext _
    have hannotation := reads_only .typeAnn rfl (.cons (reads_char ":" ':' rfl _)
      (.cons (reads_ws covers_space hsolid) (readsAll_single htoken))) rfl rfl
    have hvalue : String.ofList (type.toList ++ [' ']) = type ++ " " := by
      rw [← String.toList_inj, String.toList_ofList, String.toList_append]
      rfl
    rw [hvalue] at hannotation
    have hcolon : Solid (':' :: ' ' :: (type.toList ++ [' '] ++ words ++ rest)) :=
      solid_cons (by decide) (by decide)
    have hannotated := Program.ReadsAll.cons (Program.reads_optional hannotation) hitems
    exact ⟨_, (Program.ReadsAll.cons (reads_ws_nil hcolon) hannotated).of_eq rfl⟩

/-- What comes after the head of a rule. -/
theorem readsAll_body {alternative : Alternative} {others : List Alternative}
    (h : ∀ alternative' ∈ alternative :: others, alternative'.Printable)
    (hblanks : (CharSet.named .blank).Covers blanks) (hrest : Solid rest) :
    program.ReadsAll [.literal "=", call .ws, call .alternatives, .literal ";", call .ws]
      ('=' :: ' ' :: (alternative.format.toList ++ blanksAfter alternative others ++
        alternativeTails others ++ ';' :: blanks)) rest
      [.str "=", .str " ", .list ((alternative :: others).map Alternative.tree), .str ";",
        .str (String.ofList blanks)] := by
  have hend := Program.ReadsAll.cons (reads_char ";" ';' rfl (blanks ++ rest))
    (readsAll_single (reads_ws hblanks hrest))
  have halternatives := Program.ReadsAll.cons (reads_alternatives h (blanks ++ rest)) hend
  have hstart := starts_alternative (h alternative (List.mem_cons_self ..))
  have hsolid := ((((hstart.append (blanksAfter alternative others)).append
    (alternativeTails others)).append (';' :: blanks)).append rest).solid
  exact .cons (reads_char "=" '=' rfl _) (.cons (reads_ws covers_space hsolid) halternatives)

/-- A rule in the form in which it is read. -/
theorem toList_format_rule (head : RuleHead) (type : Option String) (alternative : Alternative)
    (others : List Alternative) (span : Span) :
    (Rule.mk head type (alternative :: others) span).format.toList =
      head.display.toList ++ (typeWord type ++ ('=' :: ' ' :: (alternative.format.toList ++
        blanksAfter alternative others ++ alternativeTails others ++ [';']))) := by
  rw [Rule.format, ← toList_body alternative others]
  cases type with
  | none => simp [typeWord, String.toList_append]
  | some type => simp [typeWord, String.toList_append]

/-- The rule starts with its name or its backquote. -/
theorem nameStart_of_rule {rule : Rule} (h : rule.Printable) :
    ∃ c cs, rule.format.toList = c :: cs ∧ NameStart c := by
  obtain ⟨hhead, -, hnonempty, -⟩ := h
  obtain ⟨head, type, alternatives, span⟩ := rule
  rcases alternatives with - | ⟨alternative, others⟩
  · exact absurd rfl hnonempty
  · rw [toList_format_rule]
    cases head with
    | simple name => exact nameStart_of_isIdentifier hhead _
    | template function param =>
      obtain ⟨hfunction, -⟩ := hhead
      simp only [RuleHead.display, String.toList_append, List.append_assoc]
      exact nameStart_of_template hfunction _

/-- A declared type begins with a colon, so no name goes on into it. -/
theorem typeWord_apart (type : Option String) (rest : List Char) :
    Apart (typeWord type ++ rest) := by
  cases type with
  | none => exact apart_cons (by decide) (by decide) (by decide)
  | some type => exact apart_cons (by decide) (by decide) (by decide)

/-- A simple rule, given how its type and its body are read. -/
theorem readsRule_simple {name : String} (h : IsIdentifier name) {words : List Char}
    {blank equals space semicolon type alternatives : Value}
    (hwords : Apart (words ++ rest))
    (hitems : program.ReadsAll [call .ws, optional (call .typeAnn), .literal "=", call .ws,
      call .alternatives, .literal ";", call .ws] words rest
      [blank, type, equals, space, alternatives, semicolon, value]) :
    program.Reads (call .rule) (name.toList ++ words) rest
      (.node "rule" {} [.str name, type, alternatives]) := by
  have hread := Program.ReadsAll.cons (reads_name h hwords.name) hitems
  -- the other alternative is for templates, which go on with a backquote
  have hrefuses := Program.refuses_look (fails_tplHead_name h hwords.name hwords.quote)
  refine reads_call .rule (show _ = [_] ++ _ :: [] from rfl) ?_ hread rfl rfl
  intro alternative halternative
  rw [List.mem_singleton.1 halternative]
  refine .here ?_
  rw [List.append_assoc]
  exact hrefuses

/-- A template. -/
theorem readsRule_template {function : Option String} (h : ∀ name ∈ function, IsIdentifier name)
    {param : String} (hparam : IsIdentifier param) {words : List Char}
    {blank equals space semicolon type alternatives : Value}
    (hitems : program.ReadsAll [call .ws, optional (call .typeAnn), .literal "=", call .ws,
      call .alternatives, .literal ";", call .ws] words rest
      [blank, type, equals, space, alternatives, semicolon, value]) :
    program.Reads (call .rule)
      ((function.getD "").toList ++ '`' :: (param.toList ++ '`' :: words)) rest
      (.node "templateRule" {} [.ofText function, .str param, type, alternatives]) := by
  have hquote : idSet.Avoids ('`' :: (words ++ rest)) := CharSet.avoids_cons.2 (by decide)
  have hclose := Program.ReadsAll.cons (reads_char "`" '`' rfl _) hitems
  have hopen := Program.ReadsAll.cons (reads_char "`" '`' rfl _)
    (Program.ReadsAll.cons (reads_name hparam hquote) hclose)
  have hread := Program.ReadsAll.cons (reads_optional_name h _) hopen
  have hahead := Program.reads_look (reads_tplHead h (param.toList ++ '`' :: (words ++ rest)))
  have hrule := Program.ReadsAll.cons (by simpa using hahead) hread
  exact reads_call .rule (show _ = [] ++ _ :: [_] from rfl) nofun hrule rfl rfl

/-- A printed rule is read back, whichever kind of head it has. -/
theorem reads_rule {rule : Rule} (h : rule.Printable)
    (hblanks : (CharSet.named .blank).Covers blanks) (hrest : Solid rest) :
    program.Reads (call .rule) (rule.format.toList ++ blanks) rest rule.tree := by
  obtain ⟨hhead, htype, hnonempty, halternatives⟩ := h
  obtain ⟨head, type, alternatives, span⟩ := rule
  rcases alternatives with - | ⟨alternative, others⟩
  · exact absurd rfl hnonempty
  · obtain ⟨blank, hitems⟩ :=
      readsAll_type htype (readsAll_body halternatives hblanks hrest) rfl
    have hformat := toList_format_rule head type alternative others span
    -- what the body looks like does not matter from here on
    generalize alternative.format.toList ++ blanksAfter alternative others ++
      alternativeTails others = body at hitems hformat
    cases head with
    | simple name =>
      have happart := typeWord_apart type ('=' :: ' ' :: (body ++ ';' :: blanks) ++ rest)
      rw [← List.append_assoc] at happart
      refine (readsRule_simple hhead happart hitems).of_eq ?_
      rw [hformat]
      simp [RuleHead.display]
    | template function param =>
      refine (readsRule_template hhead.1 hhead.2 hitems).of_eq ?_
      rw [hformat]
      simp [RuleHead.display, String.toList_append]

end Peg.Meta
