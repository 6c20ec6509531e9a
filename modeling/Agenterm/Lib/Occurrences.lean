import Agenterm.Lib.Suffix
import Mathlib.Data.List.Infix
import Mathlib.Data.Nat.Find

/-!
# Where a needle occurs in a stream that comes in parts

`OccursAt needle i xs`: the needle starts at position `i`. A search that keeps the last
`needle.length - 1` elements of what it has seen, and looks at these with the next part behind them,
misses no occurrence that ends in the new part and finds none that is not there (`occursAt_overlap`).
-/

namespace Agenterm.Lib

open List

variable {α : Type} {needle xs ys : List α} {i : Nat}

/-- The needle stands in the list at this position. -/
def OccursAt (needle : List α) (i : Nat) (xs : List α) : Prop := needle <+: xs.drop i

instance [DecidableEq α] (needle : List α) (i : Nat) (xs : List α) :
    Decidable (OccursAt needle i xs) := inferInstanceAs (Decidable (needle <+: xs.drop i))

/-- The needle stands here and nowhere before. -/
def FirstAt (needle : List α) (i : Nat) (xs : List α) : Prop :=
  OccursAt needle i xs ∧ ∀ j < i, ¬OccursAt needle j xs

namespace OccursAt

lemma length_le (h : OccursAt needle i xs) : needle.length ≤ xs.length - i := by
  have hle := List.IsPrefix.length_le h
  rwa [length_drop] at hle

/-- What stands in the list still stands there when more comes behind. -/
lemma append (h : OccursAt needle i xs) (ys : List α) : OccursAt needle i (xs ++ ys) := by
  unfold OccursAt at *
  rw [drop_append]
  exact h.trans (prefix_append _ _)

/-- What ends in the first list stands in the first list. -/
lemma of_append (h : OccursAt needle i (xs ++ ys)) (hend : i + needle.length ≤ xs.length) :
    OccursAt needle i xs := by
  unfold OccursAt at *
  rw [drop_append_of_le_length (by omega)] at h
  apply prefix_of_prefix_length_le h (prefix_append _ _)
  rw [length_drop]
  omega

end OccursAt

lemma occursAt_drop (j : Nat) : OccursAt needle j (xs.drop i) ↔ OccursAt needle (i + j) xs := by
  unfold OccursAt
  rw [drop_drop]

lemma infix_iff_occursAt : needle <:+: xs ↔ ∃ i, OccursAt needle i xs := by
  constructor
  · intro ⟨front, back, h⟩
    refine ⟨front.length, ?_⟩
    unfold OccursAt
    rw [← h, append_assoc, drop_left]
    exact prefix_append _ _
  · intro ⟨i, h⟩
    exact h.isInfix.trans (drop_suffix i xs).isInfix

/-- What stands after an end that was kept. -/
lemma lastOf_append_eq_drop (n : Nat) (xs ys : List α) :
    lastOf n xs ++ ys = (xs ++ ys).drop (xs.length - n) := by
  unfold lastOf
  rw [drop_append_of_le_length (by omega)]

lemma lastOf_lastOf_append {m n : Nat} (h : m ≤ n) (xs ys : List α) :
    lastOf m (lastOf n xs ++ ys) = lastOf m (xs ++ ys) := by
  rw [lastOf_append_eq_drop]
  unfold lastOf
  rw [drop_drop, length_drop, length_append]
  congr 1
  omega

/-- Where nothing stood before the part came, what stands now starts in the end that was kept. -/
lemma occursAt_overlap (hneedle : needle ≠ []) (hnone : ∀ j, ¬OccursAt needle j xs) (i : Nat) :
    OccursAt needle i (xs ++ ys) ↔
      ∃ j, i = xs.length - (needle.length - 1) + j ∧
        OccursAt needle j (lastOf (needle.length - 1) xs ++ ys) := by
  have hpos := length_pos_iff.mpr hneedle
  constructor
  · intro h
    have hstart : xs.length - (needle.length - 1) ≤ i := by
      by_contra hbefore
      exact hnone i (h.of_append (by omega))
    refine ⟨i - (xs.length - (needle.length - 1)), by omega, ?_⟩
    rw [lastOf_append_eq_drop, occursAt_drop]
    rwa [show xs.length - (needle.length - 1) + (i - (xs.length - (needle.length - 1))) = i by omega]
  · intro ⟨j, hj, h⟩
    rwa [lastOf_append_eq_drop, occursAt_drop, ← hj] at h

/-- The first occurrence stays the first when more comes behind. -/
lemma FirstAt.append (h : FirstAt needle i xs) (hneedle : needle ≠ []) (ys : List α) :
    FirstAt needle i (xs ++ ys) := by
  have hpos := length_pos_iff.mpr hneedle
  have hle := h.1.length_le
  refine ⟨h.1.append ys, fun j hj hoccurs => h.2 j hj ?_⟩
  -- an earlier one would end before this one does
  exact hoccurs.of_append (by omega)

/-- The parts of a list that are as long as a window, from left to right. -/
def windows (n : Nat) (xs : List α) : List (List α) :=
  (List.range (xs.length + 1 - n)).map fun i => (xs.drop i).take n

section
variable [DecidableEq α]

/-- The first window that is the needle. -/
def position (needle xs : List α) : Option Nat :=
  (windows needle.length xs).findIdx? fun part => part = needle

lemma position_eq_some (hneedle : needle ≠ []) :
    position needle xs = some i ↔ FirstAt needle i xs := by
  have hpos := length_pos_iff.mpr hneedle
  -- A window is the needle where the needle stands.
  have hwindow : ∀ j, (xs.drop j).take needle.length = needle ↔ OccursAt needle j xs := by
    intro j
    rw [OccursAt, prefix_iff_eq_take, eq_comm]
  unfold position windows
  rw [List.findIdx?_eq_some_iff_getElem]
  simp only [length_map, length_range, getElem_map, getElem_range, hwindow,
    decide_eq_true_eq]
  constructor
  · intro ⟨_, hfound, hbefore⟩
    exact ⟨hfound, hbefore⟩
  · intro ⟨hfound, hbefore⟩
    have hle := hfound.length_le
    exact ⟨by omega, hfound, hbefore⟩

lemma position_eq_none (hneedle : needle ≠ []) :
    position needle xs = none ↔ ∀ i, ¬OccursAt needle i xs := by
  constructor
  · intro h i hi
    -- Of the positions where it stands one is the first.
    have hsome : ∃ j, OccursAt needle j xs := ⟨i, hi⟩
    have hfirst : FirstAt needle (Nat.find hsome) xs :=
      ⟨Nat.find_spec hsome, fun j hj => Nat.find_min hsome hj⟩
    rw [← position_eq_some hneedle, h] at hfirst
    exact Option.some_ne_none _ hfirst.symm
  · intro h
    cases hfound : position needle xs with
    | none => rfl
    | some i => exact absurd ((position_eq_some hneedle).mp hfound).1 (h i)

end

end Agenterm.Lib
