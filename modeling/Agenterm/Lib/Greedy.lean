import Mathlib.Data.List.Basic

/-!
# Choosing elements while they fit

`greedy` goes through a list and takes every element that fits with those it has taken. When what
fits is closed under prefixes, there is one longest prefix that fits (`Longest.unique`), and what is
taken is that prefix exactly when no element behind it fits any more (`greedy_longest_iff`).
-/

namespace Agenterm.Lib

open List

section
variable {α : Type} (fits : List α → Prop) [DecidablePred fits]

/-- Takes an element if it fits. -/
def takeFitting (taken : List α) (x : α) : List α :=
  if fits (taken ++ [x]) then taken ++ [x] else taken

def greedy (taken xs : List α) : List α := xs.foldl (takeFitting fits) taken

/-- The longest prefix that fits. -/
structure Longest (fits : List α → Prop) (xs : List α) (k : Nat) : Prop where
  le_length : k ≤ xs.length
  fits_take : fits (xs.take k)
  maximal : k < xs.length → ¬ fits (xs.take (k + 1))

variable {fits} {taken xs : List α}

lemma greedy_cons (taken : List α) (x : α) (xs : List α) :
    greedy fits taken (x :: xs) = greedy fits (takeFitting fits taken x) xs := rfl

lemma greedy_append (taken xs ys : List α) :
    greedy fits taken (xs ++ ys) = greedy fits (greedy fits taken xs) ys := foldl_append

/-- What has been taken stays. -/
lemma prefix_greedy (taken xs : List α) : taken <+: greedy fits taken xs := by
  induction xs generalizing taken with
  | nil => exact prefix_refl taken
  | cons x xs ih =>
    refine List.IsPrefix.trans ?_ (ih (takeFitting fits taken x))
    unfold takeFitting
    split
    · exact prefix_append taken [x]
    · exact prefix_refl taken

lemma fits_greedy (h : fits taken) (xs : List α) : fits (greedy fits taken xs) := by
  induction xs generalizing taken with
  | nil => exact h
  | cons x xs ih =>
    refine ih ?_
    unfold takeFitting
    split
    · assumption
    · exact h

/-- Elements that all fit are all taken. -/
lemma greedy_of_fits (hclosed : ∀ xs ys : List α, fits (xs ++ ys) → fits xs)
    (h : fits (taken ++ xs)) : greedy fits taken xs = taken ++ xs := by
  induction xs generalizing taken with
  | nil => exact (append_nil taken).symm
  | cons x xs ih =>
    rw [append_cons] at h ⊢
    rw [greedy_cons, takeFitting, if_pos (hclosed _ _ h)]
    exact ih h

/-- Nothing is taken exactly when nothing fits. -/
lemma greedy_eq_self_iff : greedy fits taken xs = taken ↔ ∀ x ∈ xs, ¬ fits (taken ++ [x]) := by
  induction xs with
  | nil => exact ⟨fun _ x hmem => absurd hmem not_mem_nil, fun _ => rfl⟩
  | cons x xs ih =>
    rw [greedy_cons, takeFitting, forall_mem_cons]
    by_cases hx : fits (taken ++ [x])
    · rw [if_pos hx]
      constructor
      · intro h
        have hlength := (@prefix_greedy _ fits _ (taken ++ [x]) xs).length_le
        rw [h, length_append, length_singleton] at hlength
        omega
      · intro h
        exact absurd hx h.1
    · rw [if_neg hx, ih]
      exact ⟨fun h => ⟨hx, h⟩, fun h => h.2⟩

omit [DecidablePred fits] in
lemma exists_longest (hempty : fits []) (xs : List α) : ∃ k, Longest fits xs k := by
  by_contra hnone
  -- then every prefix fits, and so does the whole list
  have hall : ∀ k, k ≤ xs.length → fits (xs.take k) := by
    intro k
    induction k with
    | zero => exact fun _ => take_zero.symm ▸ hempty
    | succ k ih =>
      intro hk
      by_contra hnot
      exact hnone ⟨k, by omega, ih (by omega), fun _ => hnot⟩
  exact hnone ⟨xs.length, Nat.le_refl _, hall _ (Nat.le_refl _),
    fun hlt => absurd hlt (Nat.lt_irrefl _)⟩

omit [DecidablePred fits] in
lemma Longest.le (hclosed : ∀ xs ys : List α, fits (xs ++ ys) → fits xs) {k k' : Nat}
    (h : Longest fits xs k) (h' : Longest fits xs k') : k' ≤ k := by
  by_contra hlt
  have hlt : k < k' := Nat.lt_of_not_le hlt
  refine h.maximal (Nat.lt_of_lt_of_le hlt h'.le_length) ?_
  have hfits := h'.fits_take
  rw [show k' = k + 1 + (k' - (k + 1)) by omega, take_add] at hfits
  exact hclosed _ _ hfits

omit [DecidablePred fits] in
lemma Longest.unique (hclosed : ∀ xs ys : List α, fits (xs ++ ys) → fits xs) {k k' : Nat}
    (h : Longest fits xs k) (h' : Longest fits xs k') : k = k' :=
  Nat.le_antisymm (h'.le hclosed h) (h.le hclosed h')

/-- The element behind the longest prefix is passed over. -/
lemma Longest.greedy_eq (hclosed : ∀ xs ys : List α, fits (xs ++ ys) → fits xs) {k : Nat}
    (h : Longest fits xs k) :
    greedy fits [] xs = greedy fits (xs.take k) (xs.drop (k + 1)) := by
  have htake : greedy fits [] (xs.take k) = xs.take k := greedy_of_fits hclosed h.fits_take
  rcases Nat.lt_or_ge k xs.length with hlt | hge
  · have hsplit : xs = xs.take k ++ xs[k] :: xs.drop (k + 1) := by
      rw [← drop_eq_getElem_cons hlt, take_append_drop]
    have hskip : takeFitting fits (xs.take k) xs[k] = xs.take k := by
      unfold takeFitting
      rw [if_neg]
      rw [← take_succ_eq_append_getElem hlt]
      exact h.maximal hlt
    conv_lhs => rw [hsplit, greedy_append, htake, greedy_cons, hskip]
  · have hdrop : xs.drop (k + 1) = [] := drop_eq_nil_of_le (by omega)
    rw [hdrop]
    show _ = xs.take k
    rw [take_of_length_le hge] at htake ⊢
    exact htake

/-- The longest prefix that fits is what is taken exactly when nothing behind it fits with it. -/
theorem greedy_longest_iff (hclosed : ∀ xs ys : List α, fits (xs ++ ys) → fits xs)
    (hempty : fits []) (xs : List α) :
    (∃ k, Longest fits xs k ∧ greedy fits [] xs = xs.take k) ↔
      ∀ k, Longest fits xs k → ∀ x ∈ xs.drop (k + 1), ¬ fits (xs.take k ++ [x]) := by
  constructor
  · rintro ⟨k, hk, hgreedy⟩ k' hk'
    obtain rfl := hk.unique hclosed hk'
    rw [hk.greedy_eq hclosed] at hgreedy
    exact greedy_eq_self_iff.mp hgreedy
  · intro h
    obtain ⟨k, hk⟩ := exists_longest hempty xs
    refine ⟨k, hk, ?_⟩
    rw [hk.greedy_eq hclosed]
    exact greedy_eq_self_iff.mpr (h k hk)

end

end Agenterm.Lib
