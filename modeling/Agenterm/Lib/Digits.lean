import Mathlib.Data.List.Basic

/-!
# Numbers in identifiers

Identifiers are made by writing numbers in some base of at most sixteen, separated by hyphens.
A number can be read back from its digits (`toDigits_inj`), and from a text that ends with a
hyphen and the digits (`append_hyphen_inj`).
-/

namespace Agenterm.Lib

open List

variable {a b m n : Nat} {xs ys : List Char}

lemma digitChar_inj (ha : a < 16) (hb : b < 16) (h : a.digitChar = b.digitChar) : a = b := by
  have hall : ∀ a < 16, ∀ b < 16, Nat.digitChar a = Nat.digitChar b → a = b := by decide
  exact hall a ha b hb h

lemma digitChar_ne_hyphen (ha : a < 16) : a.digitChar ≠ '-' := by
  have hall : ∀ a < 16, Nat.digitChar a ≠ '-' := by decide
  exact hall a ha

/-- Different numbers have different digits. -/
theorem toDigits_inj (hb : 1 < b) (hb' : b ≤ 16) (h : Nat.toDigits b m = Nat.toDigits b n) :
    m = n := by
  induction m using Nat.strongRecOn generalizing n with
  | _ m ih =>
    have hmod (k : Nat) : k % b < 16 := by
      have := Nat.mod_lt k (show b > 0 by omega)
      omega
    rw [Nat.toDigits_eq_if hb, Nat.toDigits_eq_if hb (n := n)] at h
    by_cases hm : m < b
    · by_cases hn : n < b
      · rw [if_pos hm, if_pos hn, List.cons.injEq] at h
        exact digitChar_inj (by omega) (by omega) h.1
      · -- one digit against at least two
        rw [if_pos hm, if_neg hn] at h
        have hlen := congrArg List.length h
        have hpos : 0 < (Nat.toDigits b (n / b)).length := Nat.length_toDigits_pos
        simp only [length_append, length_singleton] at hlen
        omega
    · by_cases hn : n < b
      · rw [if_neg hm, if_pos hn] at h
        have hlen := congrArg List.length h
        have hpos : 0 < (Nat.toDigits b (m / b)).length := Nat.length_toDigits_pos
        simp only [length_append, length_singleton] at hlen
        omega
      · rw [if_neg hm, if_neg hn, ← concat_eq_append, ← concat_eq_append,
          concat_inj] at h
        have hdiv : m / b = n / b := ih (m / b) (Nat.div_lt_self (by omega) hb) h.1
        have hrem : m % b = n % b := digitChar_inj (hmod m) (hmod n) h.2
        rw [← Nat.div_add_mod m b, hdiv, hrem, Nat.div_add_mod]

lemma hyphen_notMem_toDigits (hb : 1 < b) (hb' : b ≤ 16) (n : Nat) : '-' ∉ Nat.toDigits b n := by
  induction n using Nat.strongRecOn with
  | _ n ih =>
    rw [Nat.toDigits_eq_if hb]
    split
    · rename_i hn
      rw [mem_singleton]
      exact (digitChar_ne_hyphen (show n < 16 by omega)).symm
    · have hmod := Nat.mod_lt n (show b > 0 by omega)
      rw [mem_append, mem_singleton, not_or]
      exact ⟨ih (n / b) (Nat.div_lt_self (by omega) hb),
        (digitChar_ne_hyphen (show n % b < 16 by omega)).symm⟩

lemma takeWhile_hyphen (h : '-' ∉ xs) : (xs ++ '-' :: ys).takeWhile (fun c => c ≠ '-') = xs := by
  rw [takeWhile_append_of_pos]
  · simp
  · intro c hc
    have hne : c ≠ '-' := by
      rintro rfl
      exact h hc
    simpa using hne

/-- The number behind the last hyphen of a text can be read back. -/
theorem append_hyphen_inj (hb : 1 < b) (hb' : b ≤ 16)
    (h : xs ++ '-' :: Nat.toDigits b m = ys ++ '-' :: Nat.toDigits b n) : m = n := by
  have hm : '-' ∉ (Nat.toDigits b m).reverse := by
    simpa using hyphen_notMem_toDigits hb hb' m
  have hn : '-' ∉ (Nat.toDigits b n).reverse := by
    simpa using hyphen_notMem_toDigits hb hb' n
  have hrev := congrArg List.reverse h
  rw [reverse_append, reverse_append, reverse_cons, reverse_cons,
    append_assoc, append_assoc] at hrev
  have htake := congrArg (List.takeWhile fun c => c ≠ '-') hrev
  simp only [singleton_append] at htake
  rw [takeWhile_hyphen hm, takeWhile_hyphen hn] at htake
  exact toDigits_inj hb hb' (reverse_injective htake)

end Agenterm.Lib
