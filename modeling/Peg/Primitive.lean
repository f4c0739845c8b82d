/-
Peg/Primitive.lean

The matchers that read the text themselves.  At an offset inside a character
or past the end all of them fail where they stand; skipping blanks, which
cannot fail, stays there.
-/
import Peg.Outcome
import Peg.Text.Blank

namespace Peg

open Text

namespace Primitive

/-- A constant text. -/
def literal (string : String) (input : List Char) (start : Nat) : Outcome String :=
  match (dropBytes? input start).bind (after? string.toList) with
  | some _ => .success string (start + size string.toList)
  | none => .failure ⟨string, start⟩

/-- Any one character. -/
def anyChar (input : List Char) (start : Nat) : Outcome String :=
  match dropBytes? input start with
  | some (c :: _) => .success c.toString (start + c.utf8Size)
  | _ => .failure ⟨"<any>", start⟩

/-- The offset after the blanks that follow an offset. -/
def skipBlank (input : List Char) (start : Nat) : Nat :=
  match dropBytes? input start with
  | some rest => start + size (rest.takeWhile isBlank)
  | none => start

/-- The text between two offsets in whichever order they come, empty off the boundaries. -/
def textBetween (input : List Char) (one other : Nat) : String :=
  String.ofList ((slice? input (min one other) (max one other)).getD [])

end Primitive

end Peg
