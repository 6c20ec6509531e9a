import Mathlib.Order.PiLex

/-!
# Comparing lists of different lengths place by place

A list is read as the sequence that goes on with a padding value for ever (`padded`). Comparing
two lists at each place of the longer one, until a place decides, compares these sequences in the
lexicographic order of `ℕ → α` (`find_compare_padded`). So the comparison is a linear order on the
sequences, and two lists compare as equal exactly when one is the other with padding behind it
(`padded_eq_iff`).
-/

namespace Agenterm.Lib

open List

section
variable {α : Type}

/-- The list, followed by the padding for ever. -/
def padded (pad : α) (l : List α) (i : Nat) : α := l.getD i pad

lemma padded_of_length_le {pad : α} {l : List α} {i : Nat} (h : l.length ≤ i) :
    padded pad l i = pad := by
  rw [padded, getD_eq_getElem?_getD, List.getElem?_eq_none h, Option.getD_none]

lemma padded_of_lt {pad : α} {l : List α} {i : Nat} (h : i < l.length) :
    padded pad l i = l[i] := by
  rw [padded, getD_eq_getElem?_getD, List.getElem?_eq_getElem h, Option.getD_some]

/-- Padding written out behind a list is read as padding. -/
theorem padded_append_replicate (pad : α) (l : List α) (k : Nat) :
    padded pad (l ++ List.replicate k pad) = padded pad l := by
  funext i
  by_cases hi : i < l.length
  · rw [padded_of_lt hi, padded_of_lt (by rw [length_append]; omega),
      getElem_append_left hi]
  · rw [padded_of_length_le (l := l) (by omega)]
    by_cases hk : i < l.length + k
    · rw [padded_of_lt (by rw [length_append, length_replicate]; omega),
        getElem_append_right (by omega), getElem_replicate]
    · exact padded_of_length_le (by rw [length_append, length_replicate]; omega)

/-- The shorter of two lists that read the same becomes the longer one by padding. -/
lemma eq_append_replicate {pad : α} {a b : List α} (hle : a.length ≤ b.length)
    (h : padded pad a = padded pad b) : b = a ++ List.replicate (b.length - a.length) pad := by
  refine ext_getElem ?_ fun i hi hi' => ?_
  · rw [length_append, length_replicate]
    omega
  · have hplace : padded pad a i = padded pad b i := congrFun h i
    rw [padded_of_lt hi] at hplace
    rw [← hplace]
    by_cases hia : i < a.length
    · rw [padded_of_lt hia, getElem_append_left hia]
    · rw [padded_of_length_le (by omega), getElem_append_right (by omega),
        getElem_replicate]

/-- Two lists read the same exactly when one is the other with padding behind it. -/
theorem padded_eq_iff {pad : α} {a b : List α} :
    padded pad a = padded pad b ↔
      ∃ k, a = b ++ List.replicate k pad ∨ b = a ++ List.replicate k pad := by
  constructor
  · intro h
    rcases Nat.le_total a.length b.length with hle | hle
    · exact ⟨_, .inr (eq_append_replicate hle h)⟩
    · exact ⟨_, .inl (eq_append_replicate hle h.symm)⟩
  · rintro ⟨k, rfl | rfl⟩
    · exact padded_append_replicate pad b k
    · exact (padded_append_replicate pad a k).symm

section
variable [LinearOrder α]

/-- The first place below `n` that decides is the lexicographic comparison, for sequences that
agree from `n` on. -/
theorem find_compare_range {x y : Nat → α} {n : Nat} (h : ∀ i, n ≤ i → x i = y i) :
    (((List.range n).map fun i => compare (x i) (y i)).find? (·.isNe)).getD .eq =
      compare (toLex x) (toLex y) := by
  rw [List.find?_map]
  cases hfind : (List.range n).find? ((·.isNe) ∘ fun i => compare (x i) (y i)) with
  | none =>
    -- no place decides, so the sequences are equal
    have hall : ∀ i < n, compare (x i) (y i) = .eq := by
      intro i hi
      have hi' := List.find?_range_eq_none.mp hfind i hi
      simpa using hi'
    have hxy : x = y := by
      funext i
      by_cases hi : i < n
      · exact compare_eq_iff_eq.mp (hall i hi)
      · exact h i (by omega)
    rw [Option.map_none, Option.getD_none, hxy, compare_eq_iff_eq.mpr rfl]
  | some i =>
    obtain ⟨hne, -, hbefore⟩ := List.find?_range_eq_some.mp hfind
    have hbefore' : ∀ j < i, x j = y j := by
      intro j hj
      have hj' := hbefore j hj
      exact compare_eq_iff_eq.mp (by simpa using hj')
    rw [Option.map_some, Option.getD_some]
    rcases lt_trichotomy (x i) (y i) with hlt | heq | hgt
    · rw [compare_lt_iff_lt.mpr hlt, compare_lt_iff_lt.mpr]
      exact ⟨i, hbefore', hlt⟩
    · have hcompare : compare (x i) (y i) = .eq := compare_eq_iff_eq.mpr heq
      simp [hcompare] at hne
    · rw [compare_gt_iff_gt.mpr hgt, compare_gt_iff_gt.mpr]
      exact ⟨i, fun j hj => (hbefore' j hj).symm, hgt⟩

/-- The first place of the longer list that decides is the lexicographic comparison of the
padded lists. -/
theorem find_compare_padded (pad : α) (a b : List α) :
    (((List.range (max a.length b.length)).map fun i =>
      compare (padded pad a i) (padded pad b i)).find? (·.isNe)).getD .eq =
      compare (toLex (padded pad a)) (toLex (padded pad b)) := by
  refine find_compare_range fun i hi => ?_
  rw [padded_of_length_le (le_trans (le_max_left ..) hi),
    padded_of_length_le (le_trans (le_max_right ..) hi)]

end

end

end Agenterm.Lib
