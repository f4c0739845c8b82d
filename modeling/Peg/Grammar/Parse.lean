/-
Peg/Grammar/Parse.lean

Reading grammars, and the parsers that are made of them.

A grammar is read by running the grammar of grammars on its text.  A failure
of that run is a mistake in the text; text left over after the last rule is
one too.  The tree of a complete match becomes the grammar.
-/
import Peg.Grammar.Meta
import Peg.Grammar.Tree
import Peg.Program.Compile
import Peg.Program.Run

namespace Peg

open Text

/-- The program that reads grammars. -/
def metaProgram : Except CompileError Program :=
  metaGrammar.compile {}

namespace Grammar

/-- The error for a run of the grammar of grammars that did not match. -/
def syntaxError : Program.RuntimeError → CompileError
  | .failed failure => ⟨⟨failure.position, failure.position⟩, .expected failure, none⟩
  | .unknownEntry _ | .missingEntry => ⟨{}, .malformedTree "entry rule", none⟩
  | .fault _ | .unfinished => ⟨{}, .unfinished, none⟩

/-- The grammar that a match of the grammar of grammars stands for. -/
def ofMatch (source : List Char) (tree : Program.Match) : Except CompileError Grammar :=
  if tree.stop < size source then
    .error ⟨⟨tree.stop, size source⟩, .leftover,
      some "rules are written as: name = patterns ;"⟩
  else ofTree tree.value

/-- The grammar that a text stands for. -/
def parse (source : String) : Except CompileError Grammar := do
  let program ← metaProgram
  match program.execute source.toList none false with
  | .error error => .error (syntaxError error)
  | .ok tree => ofMatch source.toList tree

end Grammar

/-! ### Parsers -/

/-- A compiled grammar with the name it has in reports. -/
structure Parser where
  name : Option String
  grammar : Grammar
  program : Program

namespace Parser

/-- The parser for the text of a grammar. -/
def compile (source : String) (name : Option String) (options : CompileOptions) :
    Except CompileError Parser := do
  let grammar ← Grammar.parse source
  let program ← grammar.compile options
  return { name, grammar, program }

/-- Match a subject from its beginning. -/
def parse (parser : Parser) (subject : String) (entry : Option String) (full : Bool) :
    Except Program.RuntimeError Program.Match :=
  parser.program.execute subject.toList entry full

/-- An error of a match, shown in the subject. -/
def report (parser : Parser) (subject : String) (error : Program.RuntimeError) : String :=
  error.report subject.toList parser.name

end Parser

end Peg
