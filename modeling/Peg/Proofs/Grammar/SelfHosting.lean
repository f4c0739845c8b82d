/-
Peg/Proofs/Grammar/SelfHosting.lean

The grammar of grammars, written down and compiled again.

Any grammar that can be written is compiled from its text to the program it
compiles to as it is, spans aside: reading the text gives the same grammar but
for the spans, and compilation and runs do not look at them.

The grammar of grammars can be written too.  So the program that reads
grammars is, in all its results, the parser that it makes of its own text, and
a text stands for the same grammar whichever of the two it is read with.
-/
import Peg.Proofs.Grammar.RoundTrip
import Peg.Proofs.Program.Spanless

namespace Peg

open Text

/-! ### Parsers for written grammars -/

/-- The text of a grammar compiles to what the grammar compiles to, spans aside. -/
theorem Parser.compile_format {grammar : Grammar} (h : grammar.Printable) (name : Option String)
    (options : CompileOptions) :
    CompileError.spanless ((compile grammar.format name options).map (·.program)) =
      CompileError.spanless (grammar.compile options) := by
  obtain ⟨grammar', hparse, herase⟩ := Grammar.parse_format h
  have hprogram : (compile grammar.format name options).map (·.program) =
      grammar'.compile options := by
    rw [compile, hparse]
    change (grammar'.compile options >>= fun program => _).map _ = _
    rcases grammar'.compile options with error | program
    · rfl
    · rfl
  rw [hprogram, ← Grammar.compile_eraseSpans, herase, Grammar.compile_eraseSpans]

/-! ### Reading with any program -/

namespace Grammar

/-- The grammar that a text stands for when it is read with a program. -/
def parseWith (program : Program) (source : String) : Except CompileError Grammar :=
  match program.execute source.toList none false with
  | .error error => .error (syntaxError error)
  | .ok tree => ofMatch source.toList tree

theorem parse_eq_parseWith {program : Program} (h : metaProgram = .ok program) :
    parse = parseWith program := by
  funext source
  rw [parse, h]
  rfl

end Grammar

/-! ### The grammar of grammars -/

theorem metaGrammar_printable : metaGrammar.Printable := by
  decide +kernel

/-- The program that reads grammars gives, on every subject, from every entry rule and whether all
of the subject has to be read or not, the result of the parser for its own grammar's text, so every
text is read alike by both. -/
theorem metaProgram_self_hosting (name : Option String) :
    ∃ program parser, metaProgram = .ok program ∧
      Parser.compile metaGrammar.format name {} = .ok parser ∧
      (∀ (subject : String) (entry : Option String) (full : Bool),
        parser.parse subject entry full = program.execute subject.toList entry full) ∧
      ∀ source : String, Grammar.parseWith parser.program source = Grammar.parse source := by
  have hmeta : metaGrammar.compile {} = .ok Meta.program := metaProgram_eq
  have hspanless := Parser.compile_format metaGrammar_printable name {}
  rw [hmeta] at hspanless
  obtain ⟨program, hprogram, hexecute⟩ := Grammar.execute_of_spanless hspanless
  obtain ⟨parser, hparser, rfl⟩ := map_eq_ok_iff.1 hprogram
  refine ⟨Meta.program, parser, metaProgram_eq, hparser, fun subject entry full => ?_,
    fun source => ?_⟩
  · rw [Parser.parse, hexecute]
  · rw [Grammar.parse_eq_parseWith metaProgram_eq, Grammar.parseWith, Grammar.parseWith, hexecute]

end Peg
