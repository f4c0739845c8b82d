/-
Peg/Proofs/Text/Offset.lean

Byte offsets as cuts of a text.

`dropBytes?` and `takeBytes?` count bytes, and everything that reads a text
goes through them.  Here both are characterised by the cut they make:

    dropBytes? cs n = some rest   iff   cs = passed ++ rest with size passed = n

After this module no proof looks at single bytes again; an offset is the size
of what was passed, and an offset that is no boundary is one without a cut.
-/
import Mathlib.Tactic.Common
import Peg.Text.Basic

namespace Peg.Text

/-! ### Sizes -/

@[simp] theorem size_nil : size [] = 0 := rfl

@[simp] theorem size_cons (c : Char) (cs : List Char) :
    size (c :: cs) = c.utf8Size + size cs := rfl

@[simp] theorem size_append (left right : List Char) :
    size (left ++ right) = size left + size right := by
  induction left with
  | nil => simp
  | cons c left ih => simp [ih, Nat.add_assoc]

theorem size_eq_zero_iff {cs : List Char} : size cs = 0 ↔ cs = [] := by
  cases cs with
  | nil => simp
  | cons c cs =>
    have := c.utf8Size_pos
    simp only [size_cons, reduceCtorEq, iff_false]
    omega

/-! ### The text after an offset -/

@[simp] theorem dropBytes?_zero (cs : List Char) : dropBytes? cs 0 = some cs := by
  cases cs <;> rfl

theorem dropBytes?_append (passed rest : List Char) :
    dropBytes? (passed ++ rest) (size passed) = some rest := by
  induction passed with
  | nil => simp
  | cons c passed ih =>
    obtain ⟨n, hn⟩ := Nat.exists_eq_add_of_lt c.utf8Size_pos
    rw [List.cons_append, size_cons, hn, Nat.zero_add, Nat.add_right_comm, dropBytes?,
      if_pos (by omega)]
    rw [show n + size passed + 1 - c.utf8Size = size passed by omega]
    exact ih

/-- An offset is a boundary when the text can be cut there. -/
theorem dropBytes?_eq_some_iff {cs rest : List Char} {n : Nat} :
    dropBytes? cs n = some rest ↔ ∃ passed, cs = passed ++ rest ∧ n = size passed := by
  constructor
  · intro h
    induction cs, n using dropBytes?.induct with
    | case1 cs =>
      simp only [dropBytes?_zero, Option.some.injEq] at h
      exact ⟨[], by simpa using h, rfl⟩
    | case2 n => simp [dropBytes?] at h
    | case3 c cs n hle ih =>
      rw [dropBytes?, if_pos hle] at h
      obtain ⟨passed, hcs, hn⟩ := ih h
      refine ⟨c :: passed, by rw [hcs, List.cons_append], ?_⟩
      rw [size_cons, ← hn]
      omega
    | case4 c cs n hle =>
      rw [dropBytes?, if_neg hle] at h
      cases h
  · rintro ⟨passed, rfl, rfl⟩
    exact dropBytes?_append passed rest

/-- Offsets add up. -/
theorem dropBytes?_add {cs passed rest : List Char} {n : Nat}
    (h : dropBytes? cs n = some (passed ++ rest)) :
    dropBytes? cs (n + size passed) = some rest := by
  obtain ⟨before, rfl, rfl⟩ := dropBytes?_eq_some_iff.1 h
  rw [← List.append_assoc, ← size_append]
  exact dropBytes?_append _ _

/-- What is left and what was passed make up the text. -/
theorem size_of_dropBytes? {cs rest : List Char} {n : Nat} (h : dropBytes? cs n = some rest) :
    n + size rest = size cs := by
  obtain ⟨passed, rfl, rfl⟩ := dropBytes?_eq_some_iff.1 h
  rw [size_append]

/-! ### The text before an offset -/

@[simp] theorem takeBytes?_zero (cs : List Char) : takeBytes? cs 0 = some [] := by
  cases cs <;> rfl

theorem takeBytes?_append (passed rest : List Char) :
    takeBytes? (passed ++ rest) (size passed) = some passed := by
  induction passed with
  | nil => simp
  | cons c passed ih =>
    obtain ⟨n, hn⟩ := Nat.exists_eq_add_of_lt c.utf8Size_pos
    rw [List.cons_append, size_cons, hn, Nat.zero_add, Nat.add_right_comm, takeBytes?,
      if_pos (by omega)]
    rw [show n + size passed + 1 - c.utf8Size = size passed by omega, ih]
    rfl

/-- The text before an offset is the other half of the cut. -/
theorem takeBytes?_eq_some_iff {cs passed : List Char} {n : Nat} :
    takeBytes? cs n = some passed ↔ ∃ rest, cs = passed ++ rest ∧ n = size passed := by
  constructor
  · intro h
    induction cs, n using takeBytes?.induct generalizing passed with
    | case1 cs =>
      simp only [takeBytes?_zero, Option.some.injEq] at h
      exact ⟨cs, by simp [← h], by simp [← h]⟩
    | case2 n => simp [takeBytes?] at h
    | case3 c cs n hle ih =>
      rw [takeBytes?, if_pos hle] at h
      obtain ⟨inner, hinner, rfl⟩ := Option.map_eq_some_iff.1 h
      obtain ⟨rest, hcs, hn⟩ := ih hinner
      refine ⟨rest, by rw [hcs, List.cons_append], ?_⟩
      rw [size_cons, ← hn]
      omega
    | case4 c cs n hle =>
      rw [takeBytes?, if_neg hle] at h
      cases h
  · rintro ⟨rest, rfl, rfl⟩
    exact takeBytes?_append passed rest

/-- A text has one beginning of each size. -/
theorem append_inj_of_size {passed passed' rest rest' : List Char}
    (h : passed ++ rest = passed' ++ rest') (hsize : size passed = size passed') :
    passed = passed' ∧ rest = rest' := by
  have hpassed := takeBytes?_append passed rest
  rw [h, hsize, takeBytes?_append, Option.some.injEq] at hpassed
  subst hpassed
  exact ⟨rfl, List.append_cancel_left h⟩

/-- The text between two cuts. -/
theorem slice?_of_dropBytes? {cs middle rest : List Char} {n : Nat}
    (h : dropBytes? cs n = some (middle ++ rest)) :
    slice? cs n (n + size middle) = some middle := by
  rw [slice?, if_pos (Nat.le_add_right ..), h, Option.bind_some, Nat.add_sub_cancel_left]
  exact takeBytes?_append middle rest

/-! ### Beginnings -/

/-- A beginning is cut off exactly when the text starts with it. -/
theorem after?_eq_some_iff {beginning cs rest : List Char} :
    after? beginning cs = some rest ↔ cs = beginning ++ rest := by
  induction beginning generalizing cs with
  | nil => simp [after?, eq_comm]
  | cons b beginning ih =>
    cases cs with
    | nil => simp [after?]
    | cons c cs =>
      by_cases hc : b = c
      · simp [after?, hc, ih]
      · simp [after?, hc, Ne.symm hc]

end Peg.Text
