/-
Peg/Text/Lines.lean

The line table of a text and the diagnostics drawn with it.

Lines end at line feeds only; a carriage return before the line feed belongs
to the terminator when the line is shown.  Lines and columns count from zero
here and from one in diagnostics, and columns count bytes.  An offset past
the end is taken for the end, so every offset has a line and a column.
-/
import Peg.Text.Basic

namespace Peg

open Text

/-! ### The table -/

/-- The offsets that follow the line feeds of a text read from offset `at`. -/
def lineStartsFrom (offset : Nat) : List Char → List Nat
  | [] => []
  | c :: cs =>
    let next := offset + c.utf8Size
    if c = '\n' then next :: lineStartsFrom next cs else lineStartsFrom next cs

/-- A text along with the offset at which each of its lines starts. -/
structure LineTable where
  source : List Char
  starts : List Nat

namespace LineTable

/-- The line table of a text. -/
def ofText (source : List Char) : LineTable :=
  ⟨source, 0 :: lineStartsFrom 0 source⟩

/-- The number of lines; an empty text has one, which is empty. -/
def lineCount (table : LineTable) : Nat :=
  table.starts.length

/-- The line and the column of an offset. -/
def lineCol (table : LineTable) (offset : Nat) : Nat × Nat :=
  let offset := min offset (size table.source)
  let line := (table.starts.takeWhile (· ≤ offset)).length - 1
  (line, offset - table.starts.getD line 0)

/-- A line without its terminator; empty for a line that does not exist. -/
def lineText (table : LineTable) (line : Nat) : List Char :=
  match table.starts[line]? with
  | none => []
  | some start =>
    let stop :=
      match table.starts[line + 1]? with
      | some next => next - 1
      | none => size table.source
    dropLastIf '\r' ((slice? table.source start stop).getD [])

end LineTable

/-! ### Diagnostics -/

/-- Three lines that show where a message applies: the line of the source, a
caret under the column, and the place and the message after an optional name. -/
def locatedMessage (source : List Char) (offset : Nat) (message : String)
    (name : Option String) : String :=
  let table := LineTable.ofText source
  let (line, column) := table.lineCol offset
  let shown := String.ofList (table.lineText line)
  let indent := String.ofList (List.replicate column ' ')
  let named := match name with
    | some name => name ++ ": "
    | none => ""
  shown ++ "\n" ++ indent ++ "^\n" ++ named ++ toString (line + 1) ++ ":"
    ++ toString (column + 1) ++ ": " ++ message

end Peg
