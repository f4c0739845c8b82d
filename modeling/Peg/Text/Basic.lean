/-
Peg/Text/Basic.lean

Texts are lists of characters, and positions in them are byte offsets of
their UTF-8 form: that is what every span, column and failure position
counts.  An offset may therefore fall inside a character or past the end, and
such an offset is not an error but a place where nothing can be read.
`dropBytes?` is the one operation that decides it; cutting a prefix or a
slice goes through it, so "off a boundary" means the same everywhere.

The rest of the module cuts texts at characters and reads numbers.
-/
namespace Peg.Text

/-! ### Bytes -/

/-- The length of a text in bytes. -/
def size : List Char → Nat
  | [] => 0
  | c :: cs => c.utf8Size + size cs

/-- The text after its first `n` bytes, unless `n` is inside a character or past the end. -/
def dropBytes? : List Char → Nat → Option (List Char)
  | cs, 0 => some cs
  | [], _ + 1 => none
  | c :: cs, n + 1 => if c.utf8Size ≤ n + 1 then dropBytes? cs (n + 1 - c.utf8Size) else none

/-- The first `n` bytes of a text, unless `n` is inside a character or past the end. -/
def takeBytes? : List Char → Nat → Option (List Char)
  | _, 0 => some []
  | [], _ + 1 => none
  | c :: cs, n + 1 =>
    if c.utf8Size ≤ n + 1 then (takeBytes? cs (n + 1 - c.utf8Size)).map (c :: ·) else none

/-- The text between two offsets, which have to be boundaries in increasing order. -/
def slice? (cs : List Char) (start stop : Nat) : Option (List Char) :=
  if start ≤ stop then (dropBytes? cs start).bind (takeBytes? · (stop - start)) else none

/-- Whether an offset falls between two characters, or at an end of the text. -/
def isBoundary (cs : List Char) (offset : Nat) : Bool :=
  (dropBytes? cs offset).isSome

/-! ### Cutting at characters -/

/-- The pieces between the occurrences of a separator: one more than there are occurrences. -/
def splitOn (separator : Char) : List Char → List (List Char)
  | [] => [[]]
  | c :: cs =>
    match splitOn separator cs with
    | [] => [[]]
    | piece :: pieces =>
      if c = separator then [] :: piece :: pieces else (c :: piece) :: pieces

/-- Texts joined with a separator between them. -/
def joinWith (separator : List Char) : List (List Char) → List Char
  | [] => []
  | [piece] => piece
  | piece :: pieces => piece ++ separator ++ joinWith separator pieces

/-- The text without one given last character, if it ends with it. -/
def dropLastIf (c : Char) (cs : List Char) : List Char :=
  if cs.getLast? = some c then cs.dropLast else cs

/-- What follows a given beginning. -/
def after? : (beginning cs : List Char) → Option (List Char)
  | [], cs => some cs
  | _ :: _, [] => none
  | b :: beginning, c :: cs => if b = c then after? beginning cs else none

/-! ### Digits and code points -/

/-- The value of a hexadecimal digit. -/
def hexDigit? (c : Char) : Option Nat :=
  if c.isDigit then some (c.toNat - '0'.toNat)
  else if 'a' ≤ c && c ≤ 'f' then some (c.toNat - 'a'.toNat + 10)
  else if 'A' ≤ c && c ≤ 'F' then some (c.toNat - 'A'.toNat + 10)
  else none

/-- The character with a code point, if there is one. -/
def charOf? (code : Nat) : Option Char :=
  if h : code.isValidChar then some (Char.ofNatAux code h) else none

/-- The number that digits of a base stand for; no digits stand for no number. -/
def numberOf? (base : Nat) : List Char → Option Nat
  | [] => none
  | digits => digits.foldlM (fun value c => do
      let digit ← hexDigit? c
      if digit < base then some (value * base + digit) else none) 0

end Peg.Text
