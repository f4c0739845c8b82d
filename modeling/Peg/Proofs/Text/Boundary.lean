/-
Peg/Proofs/Text/Boundary.lean

The offsets of a text.

An offset of a text is one where the text can be cut: between two of its
characters or at one of its ends.  A span is within a text when it goes from
one such offset to another, where the order is asked for separately: a match
that moves backward ends before it started.

Read backward, the text before an offset has the same cuts counted from the
other side (`isOffset_mirror`).
-/
import Peg.Proofs.Text.Offset
import Peg.Text.Span

namespace Peg

namespace Text

variable {cs passed rest : List Char} {n start length : Nat}

/-! ### Offsets -/

/-- A place between two characters of a text, or at one of its ends. -/
structure IsOffset (cs : List Char) (n : Nat) : Prop where
  boundary : isBoundary cs n = true
  le_size : n ≤ size cs

instance (cs : List Char) (n : Nat) : Decidable (IsOffset cs n) :=
  decidable_of_iff (isBoundary cs n = true ∧ n ≤ size cs)
    ⟨fun h => ⟨h.1, h.2⟩, fun h => ⟨h.boundary, h.le_size⟩⟩

theorem isBoundary_iff :
    isBoundary cs n = true ↔ ∃ passed rest, cs = passed ++ rest ∧ n = size passed := by
  rw [isBoundary, Option.isSome_iff_exists]
  simp only [dropBytes?_eq_some_iff]
  exact exists_comm

/-- A boundary is never past the end. -/
theorem isOffset_iff_isBoundary : IsOffset cs n ↔ isBoundary cs n = true := by
  refine ⟨IsOffset.boundary, fun h => ⟨h, ?_⟩⟩
  obtain ⟨passed, rest, rfl, rfl⟩ := isBoundary_iff.1 h
  rw [size_append]
  exact Nat.le_add_right ..

/-- The offsets of a text are its cuts. -/
theorem isOffset_iff : IsOffset cs n ↔ ∃ passed rest, cs = passed ++ rest ∧ n = size passed :=
  isOffset_iff_isBoundary.trans isBoundary_iff

theorem isOffset_zero (cs : List Char) : IsOffset cs 0 :=
  isOffset_iff.2 ⟨[], cs, rfl, rfl⟩

theorem isOffset_size (cs : List Char) : IsOffset cs (size cs) :=
  isOffset_iff.2 ⟨cs, [], (List.append_nil cs).symm, rfl⟩

/-- What is read ends at an offset. -/
theorem isOffset_of_dropBytes? (h : dropBytes? cs n = some (passed ++ rest)) :
    IsOffset cs (n + size passed) := by
  rw [isOffset_iff_isBoundary, isBoundary, dropBytes?_add h]
  rfl

/-! ### Slices -/

theorem slice?_eq_some_iff {middle : List Char} {stop : Nat} :
    slice? cs start stop = some middle ↔
      ∃ rest, dropBytes? cs start = some (middle ++ rest) ∧ stop = start + size middle := by
  constructor
  · intro h
    unfold slice? at h
    split at h
    · rename_i hle
      obtain ⟨here, hhere, hmiddle⟩ := Option.bind_eq_some_iff.1 h
      obtain ⟨rest, rfl, hsize⟩ := takeBytes?_eq_some_iff.1 hmiddle
      exact ⟨rest, hhere, by omega⟩
    · cases h
  · rintro ⟨rest, hrest, rfl⟩
    exact slice?_of_dropBytes? hrest

theorem slice?_self (h : IsOffset cs n) : slice? cs n n = some [] := by
  obtain ⟨rest, hrest⟩ := Option.isSome_iff_exists.1 h.boundary
  exact slice?_eq_some_iff.2 ⟨rest, hrest, rfl⟩

theorem isOffset_of_slice? {middle : List Char} {stop : Nat}
    (h : slice? cs start stop = some middle) : IsOffset cs stop := by
  obtain ⟨rest, hrest, rfl⟩ := slice?_eq_some_iff.1 h
  exact isOffset_of_dropBytes? hrest

/-- What lies between two offsets, and then what lies up to a third one. -/
theorem slice?_trans {first second : List Char} {middle stop : Nat}
    (hfirst : slice? cs start middle = some first)
    (hsecond : slice? cs middle stop = some second) :
    slice? cs start stop = some (first ++ second) := by
  obtain ⟨here, hhere, rfl⟩ := slice?_eq_some_iff.1 hfirst
  obtain ⟨rest, hrest, rfl⟩ := slice?_eq_some_iff.1 hsecond
  have hnext := dropBytes?_add hhere
  rw [hrest, Option.some.injEq] at hnext
  refine slice?_eq_some_iff.2 ⟨rest, ?_, by rw [size_append, Nat.add_assoc]⟩
  rw [hhere, ← hnext, List.append_assoc]

/-! ### Backward -/

@[simp] theorem size_reverse (cs : List Char) : size cs.reverse = size cs := by
  induction cs with
  | nil => rfl
  | cons c cs ih => simp [ih, Nat.add_comm]

/-- The end of the text before an offset lies right before it. -/
theorem slice?_of_suffix {ending : List Char} (hpassed : takeBytes? cs start = some passed)
    (h : ending <:+ passed) :
    size ending ≤ start ∧ slice? cs (start - size ending) start = some ending := by
  obtain ⟨rest, rfl, rfl⟩ := takeBytes?_eq_some_iff.1 hpassed
  obtain ⟨before, rfl⟩ := h
  have hcut : dropBytes? (before ++ ending ++ rest) (size before) = some (ending ++ rest) := by
    rw [List.append_assoc]
    apply dropBytes?_append
  rw [size_append, Nat.add_sub_cancel]
  exact ⟨Nat.le_add_left .., slice?_of_dropBytes? hcut⟩

/-- An offset of the text before another one, counted backward, is one of the whole text. -/
theorem isOffset_mirror (hpassed : takeBytes? cs start = some passed)
    (h : IsOffset passed.reverse length) : length ≤ start ∧ IsOffset cs (start - length) := by
  obtain ⟨rest, rfl, rfl⟩ := takeBytes?_eq_some_iff.1 hpassed
  obtain ⟨read, left, hcut, rfl⟩ := isOffset_iff.1 h
  -- what was read backward is the end of the passed text
  obtain rfl : passed = left.reverse ++ read.reverse := by
    rw [← List.reverse_append, ← hcut, List.reverse_reverse]
  rw [size_append, size_reverse, size_reverse, Nat.add_sub_cancel]
  refine ⟨Nat.le_add_left .., isOffset_iff.2 ⟨left.reverse, read.reverse ++ rest, ?_, ?_⟩⟩
  · rw [List.append_assoc]
  · rw [size_reverse]

end Text

/-! ### Spans -/

/-- A span between two offsets of a text, the first one not after the second if asked. -/
structure Span.Within (ordered : Bool) (input : List Char) (span : Span) : Prop where
  start : Text.IsOffset input span.start
  stop : Text.IsOffset input span.stop
  inOrder : ordered = true → span.start ≤ span.stop

instance (ordered : Bool) (input : List Char) (span : Span) :
    Decidable (span.Within ordered input) :=
  decidable_of_iff (Text.IsOffset input span.start ∧ Text.IsOffset input span.stop ∧
      (ordered = true → span.start ≤ span.stop))
    ⟨fun h => ⟨h.1, h.2.1, h.2.2⟩, fun h => ⟨h.start, h.stop, h.inOrder⟩⟩

/-- An empty span at an offset. -/
theorem Span.within_stay (ordered : Bool) {input : List Char} {n : Nat}
    (h : Text.IsOffset input n) : (Span.mk n n).Within ordered input :=
  ⟨h, h, fun _ => Nat.le_refl n⟩

end Peg
