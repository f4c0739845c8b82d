/-
Peg/Proofs/Text/Lines.lean

The line table agrees with counting.

What a table has to say about an offset can be said without one: the line is
the number of line feeds among the bytes before the offset, the column is the
distance from the last of them, and what is shown is the longest piece around
the offset that has no line feed.  The first two run over bytes and not over
characters, so they speak of offsets inside a character as well.

Everything goes through one cut of the text.  `IsLine before line after` says
that `line` is a whole line of `before ++ line ++ after`.  Then the table is

    0 :: (the starts in before)  ++  (the starts in after)

where the first part ends with the start of the line and has one entry more
than `before` has line feeds, and the second part begins after the line.  So
the offsets of the line find the line's entry, and no other offsets do.
-/
import Mathlib.Data.Nat.Count
import Mathlib.Tactic.Common
import Peg.Text.Lines
import Peg.Proofs.Text.Boundary
import Peg.Proofs.Text.Split

namespace Peg

namespace Text

variable {source before line after cs : List Char} {c : Char} {n o start : Nat}

/-! ### Counting line feeds -/

/-- A line feed begins at an offset. -/
def IsLineFeed (source : List Char) (n : Nat) : Prop :=
  (dropBytes? source n).bind List.head? = some '\n'

instance (source : List Char) : DecidablePred (IsLineFeed source) := fun n =>
  inferInstanceAs (Decidable ((dropBytes? source n).bind List.head? = some '\n'))

/-- The number of line feeds before an offset. -/
def lineFeedsBefore (source : List Char) (o : Nat) : Nat :=
  Nat.count (IsLineFeed source) o

/-- The offset that follows the last line feed before an offset, and zero without one. -/
def lineStart (source : List Char) : Nat → Nat
  | 0 => 0
  | o + 1 => if IsLineFeed source o then o + 1 else lineStart source o

theorem isLineFeed_iff : IsLineFeed source n ↔
    ∃ before rest, source = before ++ '\n' :: rest ∧ n = size before := by
  simp only [IsLineFeed, Option.bind_eq_some_iff, dropBytes?_eq_some_iff, List.head?_eq_some_iff]
  constructor
  · rintro ⟨here, ⟨before, hsource, hn⟩, rest, rfl⟩
    exact ⟨before, rest, hsource, hn⟩
  · rintro ⟨before, rest, hsource, hn⟩
    exact ⟨'\n' :: rest, ⟨before, hsource, hn⟩, rest, rfl⟩

theorem isLineFeed_append (before rest : List Char) (n : Nat) :
    IsLineFeed (before ++ rest) (size before + n) ↔ IsLineFeed rest n := by
  rw [isLineFeed_iff, isLineFeed_iff]
  constructor
  · rintro ⟨before', rest', hsource, hn⟩
    -- the cut before the line feed is the later one of the two
    rcases List.append_eq_append_iff.1 hsource with ⟨between, rfl, hrest⟩ | ⟨between, rfl, hrest⟩
    · rw [size_append] at hn
      exact ⟨between, rest', hrest, by omega⟩
    · rw [size_append] at hn
      have hbetween : between = [] := size_eq_zero_iff.1 (by omega)
      subst hbetween
      exact ⟨[], rest', by simpa using hrest.symm, by simp at hn; simpa using hn⟩
  · rintro ⟨between, rest', rfl, rfl⟩
    exact ⟨before ++ between, rest', by simp, by simp⟩

/-- A text without line feeds has none at its offsets, whatever follows. -/
theorem not_isLineFeed_of_not_mem (hline : '\n' ∉ line) (after : List Char)
    (hn : n < size line) :
    ¬ IsLineFeed (line ++ after) n := by
  rw [isLineFeed_iff]
  rintro ⟨before, rest, hsource, rfl⟩
  rcases List.append_eq_append_iff.1 hsource with ⟨between, rfl, -⟩ | ⟨between, rfl, hrest⟩
  · rw [size_append] at hn
    omega
  · cases between with
    | nil => simp at hn
    | cons c between =>
      obtain ⟨rfl, -⟩ := List.cons.inj hrest
      exact hline (by simp)

theorem lineFeedsBefore_of_forall_not (hle : start ≤ o)
    (hnone : ∀ n, start ≤ n → n < o → ¬ IsLineFeed source n) :
    lineFeedsBefore source o = lineFeedsBefore source start := by
  induction o, hle using Nat.le_induction with
  | base => rfl
  | succ o hle ih =>
    have ih := ih fun n hn hlt => hnone n hn (Nat.lt_succ_of_lt hlt)
    unfold lineFeedsBefore at ih ⊢
    rw [Nat.count_succ, if_neg (hnone o hle (Nat.lt_succ_self o)), ih, Nat.add_zero]

theorem lineStart_of_forall_not (hle : start ≤ o)
    (hnone : ∀ n, start ≤ n → n < o → ¬ IsLineFeed source n) :
    lineStart source o = lineStart source start := by
  induction o, hle using Nat.le_induction with
  | base => rfl
  | succ o hle ih =>
    rw [lineStart, if_neg (hnone o hle (Nat.lt_succ_self o))]
    exact ih fun n hn hlt => hnone n hn (Nat.lt_succ_of_lt hlt)

/-- Within a line there are no line feeds. -/
theorem not_isLineFeed_of_le (hline : '\n' ∉ line) (after : List Char)
    (hstart : size before ≤ n) (hstop : n < size before + size line) :
    ¬ IsLineFeed (before ++ (line ++ after)) n := by
  obtain ⟨k, rfl⟩ := Nat.exists_eq_add_of_le hstart
  rw [isLineFeed_append]
  exact not_isLineFeed_of_not_mem hline after (by omega)

/-- At the end of a piece of text the bytes have counted its characters. -/
theorem lineFeedsBefore_append (before rest : List Char) :
    lineFeedsBefore (before ++ rest) (size before) = before.count '\n' := by
  -- the last character is the one that the bytes after the others belong to
  induction before using List.reverseRecOn generalizing rest with
  | nil => rfl
  | append_singleton before c ih =>
    have ih := ih (c :: rest)
    rw [List.append_assoc, List.singleton_append, size_append, List.count_append]
    by_cases hc : c = '\n'
    · subst hc
      have hfeed : IsLineFeed (before ++ '\n' :: rest) (size before) :=
        isLineFeed_iff.2 ⟨before, rest, rfl, rfl⟩
      show Nat.count _ (size before + 1) = before.count '\n' + 1
      unfold lineFeedsBefore at ih
      rw [Nat.count_succ, ih, if_pos hfeed]
    · have hnot : '\n' ∉ [c] := by simpa using Ne.symm hc
      have hnone : lineFeedsBefore (before ++ c :: rest) (size before + size [c]) =
          lineFeedsBefore (before ++ c :: rest) (size before) :=
        lineFeedsBefore_of_forall_not (Nat.le_add_right ..)
          fun n hstart hstop => not_isLineFeed_of_le hnot rest hstart hstop
      rw [hnone, ih, List.count_eq_zero_of_not_mem hnot, Nat.add_zero]

/-! ### Whole lines -/

/-- A piece of a text that has no line feed and reaches from one to the next. -/
structure IsLine (before line after : List Char) : Prop where
  noLineFeed : '\n' ∉ line
  begins : ∀ c ∈ before.getLast?, c = '\n'
  ends : ∀ c ∈ after.head?, c = '\n'

theorem IsLine.not_isLineFeed (h : IsLine before line after) (hstop : o ≤ size before + size line) :
    ∀ n, size before ≤ n → n < o → ¬ IsLineFeed (before ++ (line ++ after)) n :=
  fun _ hle hlt => not_isLineFeed_of_le h.noLineFeed after hle (Nat.lt_of_lt_of_le hlt hstop)

/-- The line that an offset is on; a line feed is the end of its line. -/
def IsLineAround (source : List Char) (o : Nat) (line : List Char) : Prop :=
  ∃ before after, source = before ++ (line ++ after) ∧ IsLine before line after ∧
    size before ≤ o ∧ o ≤ size before + size line

/-- Every offset is on a line. -/
theorem exists_isLineAround (ho : o ≤ size source) : ∃ line, IsLineAround source o line := by
  induction source generalizing o with
  | nil => exact ⟨[], [], [], rfl, ⟨List.not_mem_nil, by simp, by simp⟩, Nat.zero_le o, ho⟩
  | cons c source ih =>
    rw [size_cons] at ho
    by_cases hstay : c = '\n' ∧ o = 0
    · obtain ⟨rfl, rfl⟩ := hstay
      refine ⟨[], [], '\n' :: source, rfl, ⟨List.not_mem_nil, by simp, by simp⟩, ?_⟩
      exact ⟨Nat.le_refl 0, Nat.zero_le _⟩
    -- an offset inside the first character is on the line of the offset after it
    obtain ⟨line, before, after, rfl, hline, hstart, hstop⟩ :=
      @ih (o - c.utf8Size) (by omega)
    by_cases hlong : c ≠ '\n' ∧ before = []
    · obtain ⟨hc, rfl⟩ := hlong
      refine ⟨c :: line, [], after, rfl, ⟨?_, by simp, hline.ends⟩, Nat.zero_le o, ?_⟩
      · exact List.not_mem_cons_of_ne_of_not_mem (Ne.symm hc) hline.noLineFeed
      · simp at hstop ⊢
        omega
    · refine ⟨line, c :: before, after, rfl, ⟨hline.noLineFeed, ?_, hline.ends⟩, ?_⟩
      · cases before with
        | nil =>
          have hc : c = '\n' := by simpa using hlong
          simp [hc]
        | cons b before => simpa using hline.begins
      · have hpassed : c.utf8Size ≤ o := by
          by_cases hc : c = '\n'
          · have hne : o ≠ 0 := fun h => hstay ⟨hc, h⟩
            subst hc
            exact Nat.pos_of_ne_zero hne
          · have hne : size before ≠ 0 := fun h => hlong ⟨hc, size_eq_zero_iff.1 h⟩
            omega
        rw [size_cons]
        omega

theorem lineStart_size (h : IsLine before line after) :
    lineStart (before ++ (line ++ after)) (size before) = size before := by
  rcases List.eq_nil_or_concat before with rfl | ⟨earlier, c, rfl⟩
  · rfl
  · obtain rfl : c = '\n' := h.begins c (by simp)
    have hfeed : IsLineFeed (earlier ++ ('\n' :: (line ++ after))) (size earlier) :=
      isLineFeed_iff.2 ⟨earlier, line ++ after, rfl, rfl⟩
    rw [List.concat_eq_append, List.append_assoc, List.singleton_append, size_append]
    show lineStart _ (size earlier + 1) = size earlier + 1
    rw [lineStart, if_pos hfeed]

/-- Up to the end of its line an offset has the line's count. -/
theorem lineFeedsBefore_of_isLine (h : IsLine before line after) (hstart : size before ≤ o)
    (hstop : o ≤ size before + size line) :
    lineFeedsBefore (before ++ (line ++ after)) o = before.count '\n' := by
  rw [lineFeedsBefore_of_forall_not hstart (h.not_isLineFeed hstop), lineFeedsBefore_append]

/-- Up to the end of its line an offset has the line's start. -/
theorem lineStart_of_isLine (h : IsLine before line after) (hstart : size before ≤ o)
    (hstop : o ≤ size before + size line) :
    lineStart (before ++ (line ++ after)) o = size before := by
  rw [lineStart_of_forall_not hstart (h.not_isLineFeed hstop), lineStart_size h]

/-- The pieces of a text are its lines. -/
theorem isLine_of_pieces (firsts others : List (List Char)) (hline : '\n' ∉ line) :
    IsLine (firsts.flatMap (· ++ ['\n'])) line (others.flatMap ('\n' :: ·)) := by
  refine ⟨hline, ?_, ?_⟩
  · rcases List.eq_nil_or_concat firsts with rfl | ⟨firsts, first, rfl⟩
    · simp
    · simp [List.flatMap_append]
  · cases others with
    | nil => simp
    | cons other others => simp

end Text

open Text

variable {source before line after cs : List Char} {n o start : Nat}

/-! ### The starts of the lines -/

theorem lineStartsFrom_append (n : Nat) (left right : List Char) :
    lineStartsFrom n (left ++ right) =
      lineStartsFrom n left ++ lineStartsFrom (n + size left) right := by
  induction left generalizing n with
  | nil => rfl
  | cons c left ih =>
    simp only [List.cons_append, lineStartsFrom, ih, size_cons, Nat.add_assoc]
    split
    · rw [List.cons_append]
    · rfl

theorem lineStartsFrom_of_not_mem (hline : '\n' ∉ line) : lineStartsFrom n line = [] := by
  induction line generalizing n with
  | nil => rfl
  | cons c line ih =>
    rw [lineStartsFrom, if_neg (Ne.symm (List.ne_of_not_mem_cons hline))]
    exact ih (List.not_mem_of_not_mem_cons hline)

theorem length_lineStartsFrom (n : Nat) (cs : List Char) :
    (lineStartsFrom n cs).length = cs.count '\n' := by
  induction cs generalizing n with
  | nil => rfl
  | cons c cs ih =>
    by_cases hc : c = '\n'
    · simp [lineStartsFrom, hc, ih]
    · simp [lineStartsFrom, hc, ih]

/-- Lines start after line feeds, so none starts where the reading did. -/
theorem mem_lineStartsFrom (h : start ∈ lineStartsFrom n cs) :
    n < start ∧ start ≤ n + size cs := by
  induction cs generalizing n with
  | nil => cases h
  | cons c cs ih =>
    have hpos := c.utf8Size_pos
    rw [lineStartsFrom] at h
    rw [size_cons]
    split at h
    · rcases List.mem_cons.1 h with rfl | h
      · omega
      · have := ih h
        omega
    · have := ih h
      omega

namespace LineTable

/-- The starts are in order, so a search by halves finds what a search in order does. -/
theorem pairwise_starts (source : List Char) : (ofText source).starts.Pairwise (· < ·) := by
  have hfrom : ∀ n, (lineStartsFrom n source).Pairwise (· < ·) := by
    induction source with
    | nil => exact fun n => List.Pairwise.nil
    | cons c source ih =>
      intro n
      rw [lineStartsFrom]
      split
      · exact List.pairwise_cons.2 ⟨fun start h => (mem_lineStartsFrom h).1, ih _⟩
      · exact ih _
  exact List.pairwise_cons.2 ⟨fun start h => (mem_lineStartsFrom h).1, hfrom 0⟩

theorem lineCount_ofText (source : List Char) :
    (ofText source).lineCount = source.count '\n' + 1 := by
  show (lineStartsFrom 0 source).length + 1 = source.count '\n' + 1
  rw [length_lineStartsFrom]

/-- The table around a line: one start for each line feed before it, then its own. -/
theorem starts_of_isLine (h : IsLine before line after) :
    ∃ earlier, (ofText (before ++ (line ++ after))).starts =
        earlier ++ size before :: lineStartsFrom (size before + size line) after ∧
      earlier.length = before.count '\n' ∧ ∀ start ∈ earlier, start ≤ size before := by
  have hstarts : (ofText (before ++ (line ++ after))).starts =
      (0 :: lineStartsFrom 0 before) ++ lineStartsFrom (size before + size line) after := by
    show 0 :: lineStartsFrom 0 (before ++ (line ++ after)) = _
    rw [lineStartsFrom_append, lineStartsFrom_append, Nat.zero_add,
      lineStartsFrom_of_not_mem h.noLineFeed, List.nil_append, List.cons_append]
  rw [hstarts]
  rcases List.eq_nil_or_concat before with rfl | ⟨passed, c, rfl⟩
  · exact ⟨[], rfl, rfl, by simp⟩
  · -- the last line feed of the text before is the one the line follows
    obtain rfl : c = '\n' := h.begins c (by simp)
    have hpassed : 0 :: lineStartsFrom 0 (passed.concat '\n') =
        (0 :: lineStartsFrom 0 passed) ++ [size (passed.concat '\n')] := by
      rw [List.concat_eq_append, lineStartsFrom_append, Nat.zero_add, size_append]
      rfl
    refine ⟨0 :: lineStartsFrom 0 passed, ?_, ?_, ?_⟩
    · rw [hpassed, List.append_assoc, List.singleton_append]
    · rw [List.length_cons, length_lineStartsFrom]
      simp
    · intro start hstart
      rw [List.concat_eq_append, size_append]
      rcases List.mem_cons.1 hstart with rfl | hstart
      · exact Nat.zero_le _
      · have := (mem_lineStartsFrom hstart).2
        omega

/-! ### Reading the table -/

/-- The line and the column of an offset of a line. -/
theorem lineCol_of_isLine (h : IsLine before line after) (hstart : size before ≤ o)
    (hstop : o ≤ size before + size line) :
    (ofText (before ++ (line ++ after))).lineCol o = (before.count '\n', o - size before) := by
  obtain ⟨earlier, hstarts, hlength, hearlier⟩ := starts_of_isLine h
  have hmin : min o (size (ofText (before ++ (line ++ after))).source) = o := by
    refine Nat.min_eq_left ?_
    show o ≤ size (before ++ (line ++ after))
    rw [size_append, size_append]
    omega
  -- lines that start later are not counted
  have hlater : (lineStartsFrom (size before + size line) after).takeWhile (· ≤ o) = [] := by
    rw [List.takeWhile_eq_nil_iff]
    intro hne
    have hlater := (mem_lineStartsFrom (List.get_mem _ ⟨0, hne⟩)).1
    rw [decide_eq_true_iff]
    omega
  have htaken : (ofText (before ++ (line ++ after))).starts.takeWhile (· ≤ o) =
      earlier ++ [size before] := by
    rw [hstarts, List.takeWhile_append_of_pos, List.takeWhile_cons_of_pos, hlater]
    · exact decide_eq_true hstart
    · exact fun start hmem => decide_eq_true (Nat.le_trans (hearlier start hmem) hstart)
  -- the last start that is counted is that of the line
  have hfound : (ofText (before ++ (line ++ after))).starts.getD earlier.length 0 =
      size before := by
    rw [hstarts]
    simp
  rw [lineCol, hmin, htaken]
  simp only [List.length_append, List.length_singleton, Nat.add_sub_cancel]
  rw [hfound, hlength]

/-- The text from the start of a line to before its line feed, if there is such a line. -/
def segment? (table : LineTable) (line : Nat) : Option (List Char) :=
  table.starts[line]?.bind fun start =>
    slice? table.source start
      ((table.starts[line + 1]?.map (· - 1)).getD (size table.source))

/-- What is shown of a line is its segment, up to a carriage return. -/
theorem lineText_eq (table : LineTable) (line : Nat) :
    table.lineText line = dropLastIf '\r' ((table.segment? line).getD []) := by
  rw [lineText, segment?]
  rcases table.starts[line]? with - | start
  · rfl
  · rcases table.starts[line + 1]? with - | next
    · rfl
    · rfl

theorem segment?_of_isLine (h : IsLine before line after) :
    (ofText (before ++ (line ++ after))).segment? (before.count '\n') = some line := by
  obtain ⟨earlier, hstarts, hlength, -⟩ := starts_of_isLine h
  have hslice : slice? (before ++ (line ++ after)) (size before) (size before + size line) =
      some line := slice?_of_dropBytes? (dropBytes?_append _ _)
  rw [segment?, hstarts, ← hlength, List.getElem?_append_right (Nat.le_refl _), Nat.sub_self,
    List.getElem?_append_right (Nat.le_add_right _ 1), Nat.add_sub_cancel_left]
  cases after with
  | nil => 
    show slice? (before ++ (line ++ [])) (size before) (size (before ++ (line ++ []))) = _
    rw [← hslice]
    simp
  | cons c after =>
    obtain rfl : c = '\n' := h.ends c rfl
    exact hslice

/-- The segments are the pieces between the line feeds. -/
theorem segment?_ofText (source : List Char) (line : Nat) :
    (ofText source).segment? line = (splitOn '\n' source)[line]? := by
  by_cases hline : line < (splitOn '\n' source).length
  · -- the pieces before the one asked for make up the text before its line
    have hpieces : splitOn '\n' source = (splitOn '\n' source).take line ++
        (splitOn '\n' source)[line] :: (splitOn '\n' source).drop (line + 1) := by
      rw [← List.drop_eq_getElem_cons hline, List.take_append_drop]
    have hnot : '\n' ∉ (splitOn '\n' source)[line] :=
      not_mem_of_mem_splitOn (List.getElem_mem hline)
    have hbefore : (((splitOn '\n' source).take line).flatMap (· ++ ['\n'])).count '\n' =
        line := by
      rw [count_flatMap_append fun piece hpiece =>
        not_mem_of_mem_splitOn (List.mem_of_mem_take hpiece), List.length_take]
      exact Nat.min_eq_left (Nat.le_of_lt hline)
    have hsource : source = ((splitOn '\n' source).take line).flatMap (· ++ ['\n']) ++
        ((splitOn '\n' source)[line] ++
          ((splitOn '\n' source).drop (line + 1)).flatMap ('\n' :: ·)) := by
      rw [← joinWith_append_cons, ← hpieces, joinWith_splitOn]
    have hsegment := segment?_of_isLine
      (isLine_of_pieces ((splitOn '\n' source).take line)
        ((splitOn '\n' source).drop (line + 1)) hnot)
    rw [← hsource, hbefore] at hsegment
    rw [hsegment, List.getElem?_eq_getElem hline]
  · have hlines : (ofText source).starts.length ≤ line := by
      show (ofText source).lineCount ≤ line
      rw [lineCount_ofText, ← length_splitOn]
      exact Nat.le_of_not_lt hline
    rw [segment?, List.getElem?_eq_none hlines, List.getElem?_eq_none (Nat.le_of_not_lt hline)]
    rfl

/-- An offset past the end is taken for the end. -/
theorem lineCol_min (source : List Char) (offset : Nat) :
    (ofText source).lineCol (min offset (size source)) = (ofText source).lineCol offset := by
  have hmin : min (min offset (size source)) (size (ofText source).source) =
      min offset (size (ofText source).source) := Nat.min_eq_left (Nat.min_le_right ..)
  rw [lineCol, lineCol, hmin]

/-- The line and the column of an offset are counted up to it. -/
theorem lineCol_of_isLineAround {source line : List Char} {offset : Nat}
    (h : IsLineAround source (min offset (size source)) line) :
    (ofText source).lineCol offset =
      (lineFeedsBefore source (min offset (size source)),
        min offset (size source) - lineStart source (min offset (size source))) := by
  obtain ⟨before, after, rfl, hline, hstart, hstop⟩ := h
  rw [← lineCol_min, lineFeedsBefore_of_isLine hline hstart hstop,
    lineStart_of_isLine hline hstart hstop]
  exact lineCol_of_isLine hline hstart hstop

theorem segment?_of_isLineAround {source line : List Char} {offset : Nat}
    (h : IsLineAround source offset line) :
    (ofText source).segment? (lineFeedsBefore source offset) = some line := by
  obtain ⟨before, after, rfl, hline, hstart, hstop⟩ := h
  rw [lineFeedsBefore_of_isLine hline hstart hstop]
  exact segment?_of_isLine hline

/-- A diagnostic is drawn with the line and the column of its offset. -/
theorem locatedMessage_eq (source : List Char) (offset : Nat) (message : String)
    (name : Option String) :
    locatedMessage source offset message name =
      String.ofList ((ofText source).lineText ((ofText source).lineCol offset).1) ++ "\n" ++
        String.ofList (List.replicate ((ofText source).lineCol offset).2 ' ') ++ "^\n" ++
        (name.map (· ++ ": ")).getD "" ++ toString (((ofText source).lineCol offset).1 + 1) ++
        ":" ++ toString (((ofText source).lineCol offset).2 + 1) ++ ": " ++ message := by
  cases name with
  | none => rfl
  | some name => rfl

/-- The table agrees with counting, and diagnostics show what was counted. -/
theorem agrees_with_counting (source : List Char) (offset : Nat) :
    let table := ofText source
    let o := min offset (size source)
    let column := o - lineStart source o
    table.lineCol offset = (lineFeedsBefore source o, column) ∧
      table.lineCount = source.count '\n' + 1 ∧
      table.starts.Pairwise (· < ·) ∧
      (∃ line, IsLineAround source o line) ∧
      (∀ line, IsLineAround source o line →
        table.lineText (table.lineCol offset).1 = dropLastIf '\r' line ∧
        ∀ message name, locatedMessage source offset message name =
          String.ofList (dropLastIf '\r' line) ++ "\n" ++
            String.ofList (List.replicate column ' ') ++ "^\n" ++
            (name.map (· ++ ": ")).getD "" ++ toString (lineFeedsBefore source o + 1) ++ ":" ++
            toString (column + 1) ++ ": " ++ message) ∧
      ∃ lines : List (List Char), lines.length = table.lineCount ∧
        (∀ line, table.segment? line = lines[line]?) ∧
        (∀ line, table.lineText line = dropLastIf '\r' ((table.segment? line).getD [])) ∧
        joinWith ['\n'] lines = source := by
  intro table o column
  have hexists : ∃ line, IsLineAround source o line := exists_isLineAround (Nat.min_le_right ..)
  -- the parts about the line around the offset follow from where this line is
  refine ⟨?_, lineCount_ofText source, pairwise_starts source, hexists, ?_, ?_⟩
  · obtain ⟨line, hline⟩ := hexists
    exact lineCol_of_isLineAround hline
  · intro line hline
    have hlineCol : table.lineCol offset = (lineFeedsBefore source o, column) :=
      lineCol_of_isLineAround hline
    have htext : table.lineText (table.lineCol offset).1 = dropLastIf '\r' line := by
      rw [lineText_eq, hlineCol, segment?_of_isLineAround hline]
      rfl
    refine ⟨htext, fun message name => ?_⟩
    rw [locatedMessage_eq, htext, hlineCol]
  · refine ⟨splitOn '\n' source, ?_, segment?_ofText source, lineText_eq table, ?_⟩
    · rw [length_splitOn]
      exact (lineCount_ofText source).symm
    · exact joinWith_splitOn '\n' source

end LineTable

end Peg
