/-
Peg/Proofs/Grammar/MapperText.lean

The text of a mapper, which may go over several lines.

A mapper that can be written is a list of trimmed lines; written, the later
ones are indented.  Reading it gives the lines with their indentation and with
the blank that separates the first from its sign, and normalizing them takes
both off again.  What a grammar is read from may indent and trim its lines in
other ways, but the lines that are read as lines of the mapper are always ones
that would be read as such again.
-/
import Peg.Proofs.Grammar.Layout
import Peg.Proofs.Grammar.Printable
import Peg.Proofs.Text.Split

namespace Peg

open Text Regex

namespace Token

/-- The lines of a mapper, trimmed, without those that are blank. -/
def mapperLines (code : List Char) : List (List Char) :=
  ((splitOn '\n' code).map trim).filter (!·.isEmpty)

theorem normalizeMapper_eq (code : String) :
    normalizeMapper code = String.ofList (joinWith ['\n'] (mapperLines code.toList)) := rfl

/-- A line as it is left by normalizing. -/
structure IsLine (line : List Char) : Prop where
  trimmed : IsTrimmed line
  nonempty : line ≠ []
  noFeed : '\n' ∉ line

theorem isLine_of_mem {code line : List Char} (h : line ∈ mapperLines code) : IsLine line := by
  rw [mapperLines, List.mem_filter, List.mem_map] at h
  obtain ⟨⟨piece, hpiece, rfl⟩, hempty⟩ := h
  refine ⟨isTrimmed_trim piece, ?_, fun hmem => ?_⟩
  · intro hnil
    rw [hnil] at hempty
    cases hempty
  · exact not_mem_of_mem_splitOn hpiece (mem_of_mem_trim hmem)

/-- Characters that a line after the first must not start with. -/
def ContinuesMapper (line : List Char) : Prop :=
  ∀ c ∈ line.head?, c ≠ '|' ∧ c ≠ ';' ∧ c ≠ '-'

theorem contains_mapperLineSet {c : Char} : Meta.mapperLineSet.contains c = true ↔
    (c ≠ '|' ∧ c ≠ ';' ∧ c ≠ '-') ∧ isBlank c = false := by
  simp only [Meta.mapperLineSet, CharSet.contains_compl, CharSet.contains_union,
    CharSet.contains_single, CharSet.contains_blank, Bool.not_eq_true', Bool.or_eq_false_iff,
    beq_eq_false_iff_ne]
  constructor
  · rintro ⟨⟨⟨hbar, hsemicolon⟩, hblank⟩, hdash⟩
    exact ⟨⟨hbar, hsemicolon, hdash⟩, hblank⟩
  · rintro ⟨⟨hbar, hsemicolon, hdash⟩, hblank⟩
    exact ⟨⟨⟨hbar, hsemicolon⟩, hblank⟩, hdash⟩

/-! ### Written mappers -/

variable {first : List Char} {others : List (List Char)} {code : String}

/-- Lines that are joined are the lines of the text. -/
theorem mapperLines_flatMap {pieces : List (List Char)} {piece : List Char}
    (hpiece : '\n' ∉ piece) (hpieces : ∀ piece ∈ pieces, '\n' ∉ piece)
    (hlines : ∀ line ∈ first :: others, IsLine line) (hfirst : trim piece = first)
    (hothers : pieces.map trim = others) :
    mapperLines (piece ++ pieces.flatMap ('\n' :: ·)) = first :: others := by
  rw [mapperLines, splitOn_flatMap hpiece hpieces, List.map_cons, hfirst, hothers,
    List.filter_eq_self]
  intro line hline
  rw [Bool.not_eq_true', List.isEmpty_eq_false_iff]
  exact (hlines line hline).nonempty

theorem lines_of_isMapperText (h : IsMapperText code) : ∃ first others,
    code.toList = first ++ others.flatMap ('\n' :: ·) ∧
      (∀ line ∈ first :: others, IsLine line) ∧ ∀ line ∈ others, ContinuesMapper line := by
  obtain ⟨raw, hraw⟩ := h.normalized
  have hlines : ∀ line ∈ mapperLines raw.toList, IsLine line := fun line hline =>
    isLine_of_mem hline
  rw [normalizeMapper_eq] at hraw
  generalize mapperLines raw.toList = lines at hraw hlines
  have hcode : code.toList = joinWith ['\n'] lines := by
    rw [← hraw, String.toList_ofList]
  rcases lines with - | ⟨first, others⟩
  · exact absurd hraw.symm h.nonempty
  · obtain ⟨hfirst, hothers⟩ := List.forall_mem_cons.1 hlines
    have hsplit : splitOn '\n' code.toList = first :: others := by
      rw [hcode, splitOn_joinWith hfirst.noFeed fun line hline => (hothers line hline).noFeed]
    refine ⟨first, others, by rw [hcode, joinWith_cons]; rfl, hlines, fun line hline => ?_⟩
    refine h.lines line ?_
    rw [hsplit]
    exact hline

/-- What the later lines of a written mapper begin with. -/
def lineIndent : List Char :=
  List.replicate 8 ' '

theorem flatMap_indent {line : List Char} (h : '\n' ∉ line) :
    (line.flatMap fun c => if c = '\n' then "\n        ".toList else [c]) = line := by
  induction line with
  | nil => rfl
  | cons c line ih =>
    rw [List.flatMap_cons, if_neg (List.ne_of_not_mem_cons h).symm,
      ih (List.not_mem_of_not_mem_cons h), List.singleton_append]

theorem flatMap_indent_lines (hothers : ∀ line ∈ others, IsLine line) :
    ((others.flatMap ('\n' :: ·)).flatMap fun c =>
      if c = '\n' then "\n        ".toList else [c]) =
      (others.map (lineIndent ++ ·)).flatMap ('\n' :: ·) := by
  induction others with
  | nil => rfl
  | cons line others ih =>
    obtain ⟨hline, hothers⟩ := List.forall_mem_cons.1 hothers
    rw [List.flatMap_cons, List.flatMap_append, ih hothers, List.flatMap_cons,
      flatMap_indent hline.noFeed]
    rfl

theorem toList_indentMapper (hcode : code.toList = first ++ others.flatMap ('\n' :: ·))
    (hlines : ∀ line ∈ first :: others, IsLine line) : (indentMapper code).toList =
      first ++ (others.map (lineIndent ++ ·)).flatMap ('\n' :: ·) := by
  obtain ⟨hfirst, hothers⟩ := List.forall_mem_cons.1 hlines
  rw [indentMapper, String.toList_ofList, hcode, List.flatMap_append,
    flatMap_indent hfirst.noFeed, flatMap_indent_lines hothers]

/-! ### Reading -/

theorem mapperLines_of_lines (hothers : ∀ line ∈ others, IsLine line)
    (hcontinues : ∀ line ∈ others, ContinuesMapper line) :
    Meta.MapperLines ((others.map (lineIndent ++ ·)).flatMap ('\n' :: ·)) := by
  induction others with
  | nil => exact .nil
  | cons line others ih =>
    obtain ⟨hline, hrest⟩ := List.forall_mem_cons.1 hothers
    obtain ⟨hcontinue, hrest'⟩ := List.forall_mem_cons.1 hcontinues
    rcases line with - | ⟨c, line⟩
    · exact absurd rfl hline.nonempty
    · have hc := contains_mapperLineSet.2 ⟨hcontinue c rfl, hline.trimmed.1 c rfl⟩
      have hcovers : (Meta.except '\n').Covers line := by
        intro d hd
        rw [Meta.contains_except, bne_iff_ne]
        rintro rfl
        exact hline.noFeed (List.mem_cons_of_mem _ hd)
      have hindent : Meta.indentSet.Covers lineIndent := CharSet.covers_replicate (by decide) 8
      have hlines := Meta.MapperLines.line hindent (by decide) hc hcovers (ih hrest hrest')
      simpa using hlines

/-- The text of a mapper as it is written after its sign. -/
def mapperWord (code : String) : List Char :=
  ' ' :: (indentMapper code).toList

/-- A mapper is read up to the line where the rule goes on. -/
theorem reads_mapperWord (h : IsMapperText code) {rest : List Char} (hrest : Meta.EndsMapper rest) :
    Meta.Token.mapper.expression.Reads (mapperWord code) rest := by
  obtain ⟨first, others, hcode, hlines, hcontinues⟩ := lines_of_isMapperText h
  obtain ⟨hfirst, hothers⟩ := List.forall_mem_cons.1 hlines
  rw [mapperWord, toList_indentMapper hcode hlines, ← List.cons_append]
  refine Meta.reads_mapper ?_ (mapperLines_of_lines hothers hcontinues) hrest
  refine CharSet.covers_cons.2 ⟨by decide, fun c hc => ?_⟩
  rw [Meta.contains_except, bne_iff_ne]
  rintro rfl
  exact hfirst.noFeed hc

/-- Normalizing takes off what writing has put before the lines, and blanks before the first. -/
theorem normalizeMapper_indentMapper (blanks : List Char)
    (hblanks : ∀ c ∈ blanks, isBlank c = true) (hfeed : '\n' ∉ blanks)
    (hcode : code.toList = first ++ others.flatMap ('\n' :: ·))
    (hlines : ∀ line ∈ first :: others, IsLine line) :
    normalizeMapper (String.ofList (blanks ++ (indentMapper code).toList)) = code := by
  obtain ⟨hfirst, hothers⟩ := List.forall_mem_cons.1 hlines
  have hindent : (CharSet.named .blank).Covers lineIndent := CharSet.covers_replicate rfl 8
  have hindentFeed : '\n' ∉ lineIndent := by decide
  rw [normalizeMapper_eq, String.toList_ofList, toList_indentMapper hcode hlines,
    ← List.append_assoc, mapperLines_flatMap _ _ hlines, joinWith_cons]
  · exact (congrArg String.ofList hcode).symm.trans (String.ofList_toList ..)
  · exact (trim_blanks_append hblanks first).trans (trim_of_isTrimmed hfirst.trimmed)
  · rw [List.map_map]
    refine (List.map_congr_left fun line hline => ?_).trans (List.map_id others)
    exact (trim_blanks_append hindent line).trans (trim_of_isTrimmed (hothers line hline).trimmed)
  · rw [List.mem_append, not_or]
    exact ⟨hfeed, hfirst.noFeed⟩
  · intro piece hpiece
    obtain ⟨line, hline, rfl⟩ := List.mem_map.1 hpiece
    rw [List.mem_append, not_or]
    exact ⟨hindentFeed, (hothers line hline).noFeed⟩

/-- A mapper is read from what was written after its sign. -/
theorem normalizeMapper_mapperWord (h : IsMapperText code) :
    normalizeMapper (String.ofList (mapperWord code)) = code := by
  obtain ⟨first, others, hcode, hlines, -⟩ := lines_of_isMapperText h
  have hblank : ∀ c ∈ [' '], isBlank c = true := List.forall_mem_singleton.2 rfl
  have hfeed : '\n' ∉ [' '] := by decide
  have hword : mapperWord code = [' '] ++ (indentMapper code).toList := rfl
  rw [hword]
  exact normalizeMapper_indentMapper [' '] hblank hfeed hcode hlines

/-! ### What was read -/

/-- The lines that are read after the first one go on with the mapper when they are trimmed. -/
theorem exists_pieces {lines : List Char} (h : Meta.MapperLines lines) :
    ∃ pieces : List (List Char), lines = pieces.flatMap ('\n' :: ·) ∧
      ∀ piece ∈ pieces, '\n' ∉ piece ∧ ContinuesMapper (trim piece) := by
  induction h with
  | nil => exact ⟨[], rfl, nofun⟩
  | line hindent hne hc hline h ih =>
    rename_i indent line lines c
    obtain ⟨pieces, rfl, hpieces⟩ := ih
    refine ⟨(indent ++ c :: line) :: pieces, by simp, List.forall_mem_cons.2 ⟨⟨?_, ?_⟩, hpieces⟩⟩
    · -- none of the three parts of a line has a line feed
      intro hmem
      rcases List.mem_append.1 hmem with hmem | hmem
      · exact absurd (hindent _ hmem) (by decide)
      · rcases List.mem_cons.1 hmem with rfl | hmem
        · exact absurd hc (by decide)
        · exact absurd (hline _ hmem) (by decide)
    · -- the indentation is trimmed, so the line begins with what may continue a mapper
      have hblanks : ∀ d ∈ indent, isBlank d = true := by
        intro d hd
        have hd := hindent d hd
        rw [Meta.indentSet, CharSet.contains_union, CharSet.contains_single,
          CharSet.contains_single, Bool.or_eq_true, beq_iff_eq, beq_iff_eq] at hd
        rcases hd with rfl | rfl
        · decide
        · decide
      obtain ⟨hcontinues, hblank⟩ := contains_mapperLineSet.1 hc
      obtain ⟨rest, hrest⟩ := trim_cons hblank line
      rw [trim_blanks_append hblanks, hrest]
      intro d hd
      rw [← Option.some.inj hd]
      exact hcontinues

/-- Whatever is read as a mapper can be written, unless it is blank. -/
theorem isMapperText_of_accepts {word : List Char}
    (h : Meta.Token.mapper.expression.Accepts word)
    (hne : normalizeMapper (String.ofList word) ≠ "") :
    IsMapperText (normalizeMapper (String.ofList word)) := by
  refine ⟨hne, ⟨_, rfl⟩, ?_⟩
  obtain ⟨first, lines, rfl, hfirst, hlines⟩ := Meta.accepts_mapper h
  obtain ⟨pieces, rfl, hpieces⟩ := exists_pieces hlines
  have hfeed : '\n' ∉ first := fun hmem => absurd (hfirst _ hmem) (by decide)
  rw [normalizeMapper_eq, String.toList_ofList] at hne ⊢
  rw [String.toList_ofList]
  have hsplit : splitOn '\n' (first ++ pieces.flatMap ('\n' :: ·)) = first :: pieces :=
    splitOn_flatMap hfeed fun piece hpiece => (hpieces piece hpiece).1
  have hisLine : ∀ line ∈ mapperLines (first ++ pieces.flatMap ('\n' :: ·)), IsLine line :=
    fun line hline => isLine_of_mem hline
  -- lines that are left out may include the first, and never make a continued one the first
  have htail : (mapperLines (first ++ pieces.flatMap ('\n' :: ·))).tail ⊆ pieces.map trim := by
    rw [mapperLines, hsplit, List.map_cons]
    intro line hline
    by_cases hempty : (trim first).isEmpty = true
    · rw [List.filter_cons_of_neg (by simp [hempty])] at hline
      exact (List.mem_filter.1 (List.mem_of_mem_tail hline)).1
    · rw [List.filter_cons_of_pos (by simp [hempty]), List.tail_cons] at hline
      exact (List.mem_filter.1 hline).1
  -- from here on it does not matter where the lines come from
  generalize mapperLines (first ++ pieces.flatMap ('\n' :: ·)) = lines at hne hisLine htail
  rcases lines with - | ⟨line, others⟩
  · exact absurd rfl hne
  · obtain ⟨hline, hothers⟩ := List.forall_mem_cons.1 hisLine
    rw [splitOn_joinWith hline.noFeed fun other hother => (hothers other hother).noFeed]
    intro other hother
    obtain ⟨piece, hpiece, rfl⟩ := List.mem_map.1 (htail hother)
    exact (hpieces piece hpiece).2

end Token

end Peg
