/-
Peg/Proofs/Grammar/Tiling.lean

The parts of a grammar tile its source.

After the blanks and comments at its beginning, a text that is read as a
grammar is nothing but its blocks and rules: the spans of these follow each
other without gaps up to the end.  Inside of them the parts of the rules stand
in order.

Every span begins and ends between two characters of the text, and the errors
of reading it and of compiling it have such spans too.
-/
import Peg.Proofs.Grammar.Locate
import Peg.Proofs.Program.Bounds
import Peg.Proofs.Program.Errors

namespace Peg

open Text CompileError

namespace Meta

/-- Where the blanks and comments that a text starts with end. -/
def layoutEnd (text : List Char) : Nat :=
  size text - size (skipLayout false text)

theorem eq_layoutEnd {text : List Char} {first : Nat}
    (h : dropBytes? text first = some (skipLayout false text)) : first = layoutEnd text := by
  rw [layoutEnd, ← size_of_dropBytes? h, Nat.add_sub_cancel]

/-- No matcher of the grammar of grammars goes backward or is the host's. -/
theorem every_stays : program.Every (Matcher.Stays true) := by
  refine every_isPlain.mono fun m hm => ?_
  cases m with
  | backtrack inner => cases hm
  | external name transformer inner => cases hm
  | _ => exact ⟨rfl, fun _ => rfl⟩

/-- A run of a rule stops at an offset, or fails at one. -/
theorem run_within (name : Name) (source : List Char) :
    (program.runRule name.number source 0).Ensures (fun _ stop => IsOffset source stop)
      fun failure => IsOffset source failure.position := by
  have hfollows := Program.call_follows
    (every_stays.mono fun _ hm => Course.within_permits hm) (program.fuel source) name.number none
  refine ((hfollows source 0).ensures_within (isOffset_zero source)).mono ?_ ?_
  · exact fun _ _ hspan => hspan.stop
  · exact fun _ hspan => hspan.stop

/-- The value of a run speaks of offsets of the text. -/
theorem run_inBounds (name : Name) (source : List Char) :
    (program.runRule name.number source 0).Ensures (fun tree _ => tree.InBounds source)
      fun _ => True :=
  Program.call_inBounds every_stays (program.fuel source) name.number none (isOffset_zero source)

end Meta

/-! ### Texts of grammars -/

namespace Grammar

variable {source : String} {grammar : Grammar}

/-- Where the parts of a grammar are if a match of a text stands for it, and where an error is. -/
theorem ofMatch_ensures {events : List Event} {tree : Value} {stop : Nat}
    (hrun : Meta.program.runRule Meta.Name.grammar.number source.toList 0 =
      some (events, .success tree stop)) :
    Ensures (Span.Within true source.toList)
      (fun grammar => grammar.Placed (Meta.layoutEnd source.toList) (size source.toList) ∧
        ∀ span ∈ grammar.spans, span.Within true source.toList)
      (ofMatch source.toList ⟨tree, stop⟩) := by
  have hstop : IsOffset source.toList stop := (Meta.run_within .grammar source.toList).success hrun
  have hbounds : tree.InBounds source.toList :=
    (Meta.run_inBounds .grammar source.toList).success hrun
  have hspanned := Tree.ofTree_spanned hbounds
  obtain ⟨first, hfirst, hplaced⟩ := Meta.finding_of_run hrun source.toList (dropBytes?_zero _)
  rw [Meta.eq_layoutEnd hfirst] at hplaced
  rw [ofMatch]
  split
  · rename_i hlt
    exact ⟨hstop, isOffset_size _, fun _ => hlt.le⟩
  · -- nothing is left over, so the match ends where the text does
    rename_i hleft
    obtain rfl : stop = size source.toList := hstop.le_size.antisymm (Nat.not_lt.1 hleft)
    rcases hread : ofTree tree with error | grammar
    · exact hspanned.error hread
    · exact ⟨hplaced grammar hread, hspanned.result hread⟩

theorem placed_of_parse (h : parse source = .ok grammar) :
    grammar.Placed (Meta.layoutEnd source.toList) (size source.toList) ∧
      ∀ span ∈ grammar.spans, span.Within true source.toList := by
  rcases parse_eq source with ⟨events, tree, stop, hrun, hparse⟩ | ⟨events, failure, -, hparse⟩
  · exact (ofMatch_ensures hrun).result (hparse.symm.trans h)
  · cases hparse.symm.trans h

theorem within_of_parse {error : CompileError} (h : parse source = .error error) :
    error.span.Within true source.toList := by
  rcases parse_eq source with ⟨events, tree, stop, hrun, hparse⟩ | ⟨events, failure, hrun, hparse⟩
  · exact (ofMatch_ensures hrun).error (hparse.symm.trans h)
  · have hposition := (Meta.run_within .grammar source.toList).failure hrun
    rw [← Except.error.inj (hparse.symm.trans h)]
    exact Span.within_stay true hposition

/-- The blocks and rules of a grammar that is read from a text tile it from where its leading blanks
and comments end, the parts inside of them are placed, and all their bounds are between characters
of the text.  So are those of the span of any error of the text. -/
theorem parse_placed (source : String) :
    (∀ grammar, parse source = .ok grammar →
      grammar.Placed (Meta.layoutEnd source.toList) (size source.toList) ∧
        ∀ span ∈ grammar.spans, span.Within true source.toList) ∧
    ∀ name options error, Parser.compile source name options = .error error →
      error.span.Within true source.toList := by
  refine ⟨fun grammar => placed_of_parse, fun name options error h => ?_⟩
  rw [Parser.compile] at h
  rcases hparse : parse source with parseError | grammar
  · rw [hparse] at h
    obtain rfl := Except.error.inj h
    exact within_of_parse hparse
  · rw [hparse] at h
    have hcompile := compile_points (Span.within_stay true (isOffset_zero source.toList))
      (placed_of_parse hparse).2 options
    have hparser : Points (Span.Within true source.toList)
        (grammar.compile options >>= fun program => pure (⟨name, grammar, program⟩ : Parser)) :=
      hcompile.bind fun _ _ => trivial
    exact hparser.error h

end Grammar

namespace Commented

/-- A rule after a comment with a letter of two bytes; the rule it calls is left out. -/
def text : List Char :=
  ['-', '-', 'é', '\n', 'p', '=', '.', 'q', ';']

theorem refused_after_comment :
    (∃ grammar, Grammar.parse (String.ofList text) = .ok grammar ∧ grammar.Placed 5 10 ∧
      ∀ span ∈ grammar.spans, span.Within true text) ∧
    ∃ error, Parser.compile (String.ofList text) none {} = .error error ∧
      error.span.Within true text := by
  have hrefused : ((Grammar.ofChars text).toOption.any fun grammar =>
      (grammar.compile {}).toOption.isNone) = true := by decide +kernel
  obtain ⟨grammar, hparse, hcompile⟩ := Grammar.exists_parse_of_any hrefused
  have hplaced := (Grammar.parse_placed (String.ofList text)).1 grammar hparse
  rw [String.toList_ofList] at hplaced
  refine ⟨⟨grammar, hparse, hplaced⟩, ?_⟩
  rcases hresult : grammar.compile {} with error | program
  · have herror : Parser.compile (String.ofList text) none {} = .error error := by
      rw [Parser.compile, hparse]
      show (grammar.compile {} >>= fun program => _) = _
      rw [hresult]
      rfl
    have hwithin := (Grammar.parse_placed (String.ofList text)).2 none {} error herror
    rw [String.toList_ofList] at hwithin
    exact ⟨error, herror, hwithin⟩
  · rw [hresult] at hcompile
    cases hcompile

end Commented

end Peg
