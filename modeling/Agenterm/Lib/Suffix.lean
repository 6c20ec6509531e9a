import Mathlib.Data.List.Basic

/-!
# The end of a stream

A buffer that keeps the last elements of a stream (`lastOf`), and the part of a stream between two
positions (`slice`): parts that follow each other make up the part from the first to the last.
-/

namespace Agenterm.Lib

open List

variable {first last : Nat}

section
variable {α : Type} {n : Nat} {xs ys : List α}

/-- The last `n` elements. -/
def lastOf (n : Nat) (xs : List α) : List α := xs.drop (xs.length - n)

lemma length_lastOf (n : Nat) (xs : List α) : (lastOf n xs).length = min n xs.length := by
  unfold lastOf
  rw [length_drop]
  omega

/-- A long addition is all that is kept. -/
lemma lastOf_append_long (h : n ≤ ys.length) :
    lastOf n (xs ++ ys) = ys.drop (ys.length - n) := by
  unfold lastOf
  rw [length_append, show xs.length + ys.length - n = xs.length + (ys.length - n) by omega,
    drop_append]
  simp

/-- A short addition pushes out as much as there is no room for. -/
lemma lastOf_append_short (h : ys.length ≤ n) :
    lastOf n (xs ++ ys) = (lastOf n xs).drop ((lastOf n xs).length + ys.length - n) ++ ys := by
  rw [length_lastOf]
  unfold lastOf
  rw [length_append, drop_drop, drop_append_of_le_length (by omega)]
  congr 2
  omega

/-- What is kept, from a position of the stream on. -/
lemma drop_lastOf {position : Nat} (h : xs.length - n ≤ position) :
    (lastOf n xs).drop (position - (xs.length - n)) = xs.drop position := by
  unfold lastOf
  rw [drop_drop]
  congr 1
  omega

/-! ## Parts -/

/-- The part from `first` up to `last`. -/
def slice (xs : List α) (first last : Nat) : List α := (xs.drop first).take (last - first)

lemma slice_self (xs : List α) (position : Nat) : slice xs position position = [] := by
  unfold slice
  rw [Nat.sub_self, take_zero]

/-- What is added behind a part does not change it. -/
lemma slice_append (h : last ≤ xs.length) : slice (xs ++ ys) first last = slice xs first last := by
  unfold slice
  by_cases hfirst : first ≤ last
  · rw [drop_append_of_le_length (by omega),
      take_append_of_le_length (by rw [length_drop]; omega)]
  · rw [show last - first = 0 by omega, take_zero, take_zero]

/-- The elements behind a part, up to some number, make it longer. -/
lemma slice_append_take (h : first ≤ last) (hlast : last ≤ xs.length) (count : Nat) :
    slice xs first last ++ (xs.drop last).take count =
      slice xs first (last + ((xs.drop last).take count).length) := by
  unfold slice
  rw [length_take, length_drop,
    show last + min count (xs.length - last) - first
      = last - first + min count (xs.length - last) by omega,
    take_add, drop_drop, show first + (last - first) = last by omega,
    ← length_drop, ← take_eq_take_min]

lemma length_slice (h : last ≤ xs.length) : (slice xs first last).length = last - first := by
  unfold slice
  rw [length_take, length_drop]
  omega

end

end Agenterm.Lib
