import Mathlib.Data.List.Sort

/-!
# Ranks in a sorted list

`ahead r l a` counts the elements that an order puts before `a`. The elements of a sorted list from
a position on are those with at least that many ahead of them (`mem_drop_insertionSort`).
-/

namespace Agenterm.Lib

open List

section
variable {α : Type} [DecidableEq α] {r : α → α → Prop} [DecidableRel r] {l l' : List α} {a : α}
  {k : Nat}

/-- The number of elements ahead of `a`. -/
def ahead (r : α → α → Prop) [DecidableRel r] (l : List α) (a : α) : Nat :=
  l.countP fun b => decide (r b a ∧ b ≠ a)

omit [DecidableEq α] in
lemma drop_min_length (l : List α) (k : Nat) : l.drop (min k l.length) = l.drop k := by
  rcases Nat.le_total k l.length with hle | hle
  · rw [Nat.min_eq_left hle]
  · rw [Nat.min_eq_right hle, drop_length, drop_eq_nil_of_le hle]

lemma ahead_le_of_sublist (h : l'.Sublist l) (a : α) : ahead r l' a ≤ ahead r l a := h.countP_le

lemma ahead_perm (h : l'.Perm l) (a : α) : ahead r l' a = ahead r l a := h.countP_eq _

/-- In a sorted list, what is ahead stands before. -/
lemma mem_drop_of_sorted [Std.Antisymm r] (hsorted : l.Pairwise r) (hnodup : l.Nodup) :
    a ∈ l.drop k ↔ a ∈ l ∧ k ≤ ahead r l a := by
  induction l generalizing k with
  | nil => simp
  | cons x l ih =>
    rw [pairwise_cons] at hsorted
    rw [nodup_cons] at hnodup
    cases k with
    | zero => simp
    | succ k =>
      rw [drop_succ_cons, ih hsorted.2 hnodup.2, mem_cons]
      unfold ahead
      rw [countP_cons]
      by_cases hax : a = x
      · subst hax
        -- nothing is ahead of the first element
        have hnone : (l.countP fun b => decide (r b a ∧ b ≠ a)) = 0 := by
          rw [countP_eq_zero]
          intro b hb hahead
          obtain ⟨hba, hne⟩ := of_decide_eq_true hahead
          exact hne (Std.Antisymm.antisymm b a hba (hsorted.1 b hb))
        rw [hnone]
        simp [hnodup.1]
      · have hone : decide (r x a ∧ x ≠ a) = true ↔ r x a := by
          simp [Ne.symm hax]
        constructor
        · rintro ⟨hmem, hk⟩
          refine ⟨.inr hmem, ?_⟩
          rw [if_pos (hone.mpr (hsorted.1 a hmem))]
          exact Nat.succ_le_succ hk
        · rintro ⟨hax' | hmem, hk⟩
          · exact absurd hax' hax
          · rw [if_pos (hone.mpr (hsorted.1 a hmem))] at hk
            exact ⟨hmem, Nat.le_of_succ_le_succ hk⟩

theorem mem_drop_insertionSort [Std.Antisymm r] [Std.Total r] [IsTrans α r] (hnodup : l.Nodup) :
    a ∈ (l.insertionSort r).drop k ↔ a ∈ l ∧ k ≤ ahead r l a := by
  rw [mem_drop_of_sorted (pairwise_insertionSort r l)
    ((perm_insertionSort r l).nodup_iff.mpr hnodup), mem_insertionSort,
    ahead_perm (perm_insertionSort r l)]

end

end Agenterm.Lib
