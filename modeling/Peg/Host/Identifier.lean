/-
Peg/Host/Identifier.lean

Identifiers of generated code.

The name of a rule becomes the name of a function.  A keyword becomes a raw
identifier, except for the four that cannot be raw: they get an underscore.
Names that are made from another one, such as those of alternatives, are made
from its bare form.
-/
namespace Peg.Host

/-- Words that the host language reserves. -/
def reservedWords : List String := [
  "as", "break", "const", "continue", "crate", "else", "enum", "extern", "false", "fn", "for",
  "if", "impl", "in", "let", "loop", "match", "mod", "move", "mut", "pub", "ref", "return",
  "self", "Self", "static", "struct", "super", "trait", "true", "type", "unsafe", "use", "where",
  "while", "async", "await", "dyn", "abstract", "become", "box", "do", "final", "macro",
  "override", "priv", "typeof", "unsized", "virtual", "yield", "try", "union"]

/-- Words that no raw identifier stands for. -/
def pathWords : List String :=
  ["self", "Self", "super", "crate"]

/-- An identifier: a word, and whether it is raw. -/
structure Identifier where
  word : String
  raw : Bool := false
  deriving DecidableEq, Repr

namespace Identifier

/-- The identifier for a name, whatever word it is. -/
def ofName (name : String) : Identifier :=
  if pathWords.contains name then ⟨name ++ "_", false⟩
  else ⟨name, reservedWords.contains name⟩

/-- The identifier as it is written. -/
def print (identifier : Identifier) : String :=
  if identifier.raw then "r#" ++ identifier.word else identifier.word

/-- The name of the function for an alternative of a rule. -/
def alternative (identifier : Identifier) (index : Nat) : Identifier :=
  ⟨identifier.word ++ "_alt" ++ toString index, false⟩

end Identifier

end Peg.Host
